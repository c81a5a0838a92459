/-
Valid results have the shape that is checked when they are read, and bind back to
themselves.

Every check of the shape is implied by a check of the constructors: labels of a
valid choice are declared identifiers, a valid decision has one answer for each
of its one to eight questions.  Binding repeats the constructors on the values
that were valid, so that nothing about floating-point arithmetic is used.
-/
import Antiburn.SavedRoundTrip

namespace Antiburn

section Binding

variable [Platform]

/-! ### Answers -/

lemma isFinite_of_validateProbability {x : Platform.F64} (h : validateProbability x = .ok ()) :
    Platform.isFinite x = true := by
  unfold validateProbability inRange at h
  split_ifs at h with hrange
  rw [Bool.and_eq_true, Bool.and_eq_true] at hrange
  exact hrange.1.1

lemma isFinite_of_validateConfidence {confidence : Option Platform.F64}
    (h : validateConfidence confidence = .ok ()) :
    ∀ x ∈ confidence.toList, Platform.isFinite x = true := by
  cases confidence with
  | none => exact fun x hx => by cases hx
  | some c =>
    intro x hx
    obtain rfl := List.mem_singleton.mp hx
    exact isFinite_of_validateProbability h

lemma isFinite_of_validateDistribution {probabilities : List Platform.F64}
    (h : validateDistribution probabilities = .ok ()) :
    ∀ x ∈ probabilities, Platform.isFinite x = true := by
  obtain ⟨total, hsum, -⟩ := Except.of_bind_ok h
  have hall : ∀ (probabilities : List Platform.F64) (start : Platform.F64),
      probabilities.foldlM (fun sum probability => do
        validateProbability probability
        return Platform.f64Add sum probability) start = .ok total →
      ∀ x ∈ probabilities, Platform.isFinite x = true := by
    intro probabilities
    induction probabilities with
    | nil => exact fun _ _ x hx => by cases hx
    | cons first rest ih =>
      intro start hsum x hx
      rw [List.foldlM_cons] at hsum
      obtain ⟨next, hfirst, hrest⟩ := Except.of_bind_ok hsum
      obtain ⟨_, hvalid, -⟩ := Except.of_bind_ok hfirst
      rcases List.mem_cons.mp hx with rfl | hx
      · exact isFinite_of_validateProbability hvalid
      · exact ih next hrest x hx
  exact hall probabilities _ hsum

variable {question : Question}

lemma ChoiceResult.details_of_validate {result : ChoiceResult}
    (h : result.validate question = .ok ()) :
    validateConfidence result.confidence = .ok () ∧
      ∀ probabilities, result.probabilities = some probabilities →
        validateDistribution (probabilities.toList.map Prod.snd) = .ok () := by
  obtain ⟨_, -, h⟩ := Except.of_bind_ok h
  cases question with
  | score | noul => cases h
  | choice text criteria =>
    obtain ⟨-, h⟩ := Except.of_refuse_ok h
    cases hprobs : result.probabilities with
    | none =>
      rw [hprobs] at h
      exact ⟨h, fun _ hsome => by cases hsome⟩
    | some probabilities =>
      rw [hprobs] at h
      obtain ⟨-, h⟩ := Except.of_refuse_ok h
      obtain ⟨_, hdistr, hconf⟩ := Except.of_bind_ok h
      refine ⟨hconf, fun _ hsome => ?_⟩
      cases hsome
      exact hdistr

lemma ScoreResult.details_of_validate {result : ScoreResult}
    (h : result.validate question = .ok ()) :
    ∃ text criteria, question = .score text criteria ∧ question.validate = .ok () ∧
      inRange result.output (Platform.f64OfDecimal (toString (criteria.length - 1))) = true ∧
      validateConfidence result.confidence = .ok () ∧
      ∀ probabilities, result.probabilities = some probabilities →
        probabilities.length = criteria.length ∧ validateDistribution probabilities = .ok () := by
  obtain ⟨_, hvalid, h⟩ := Except.of_bind_ok h
  cases question with
  | choice | noul => cases h
  | score text criteria =>
    obtain ⟨hrange, h⟩ := Except.of_refuse_ok h
    rw [Bool.not_eq_true', Bool.not_eq_false] at hrange
    refine ⟨text, criteria, rfl, orResultError_ok hvalid, hrange, ?_⟩
    cases hprobs : result.probabilities with
    | none =>
      rw [hprobs] at h
      exact ⟨h, fun _ hsome => by cases hsome⟩
    | some probabilities =>
      rw [hprobs] at h
      obtain ⟨hlen, h⟩ := Except.of_refuse_ok h
      obtain ⟨_, hdistr, hconf⟩ := Except.of_bind_ok h
      refine ⟨hconf, fun _ hsome => ?_⟩
      cases hsome
      exact ⟨by simpa using hlen, hdistr⟩

lemma Question.two_le_of_validate (h : question.validate = .ok ()) :
    (∀ text criteria, question = .choice text criteria → 2 ≤ criteria.length) ∧
      ∀ text criteria, question = .score text criteria → 2 ≤ criteria.length := by
  refine ⟨fun text criteria heq => ?_, fun text criteria heq => ?_⟩
  · subst heq
    unfold Question.validate at h
    obtain ⟨hcrit, -⟩ := Except.of_refuse_ok h
    simp only [Bool.or_eq_true, not_or, decide_eq_true_eq, Nat.not_lt] at hcrit
    exact hcrit.1.1
  · subst heq
    unfold Question.validate at h
    obtain ⟨hcrit, -⟩ := Except.of_refuse_ok h
    simp only [Bool.or_eq_true, not_or, decide_eq_true_eq, Nat.not_lt] at hcrit
    exact hcrit.1

/-- **An answer that validates** has the shape of saved ones, holds finite floats, and binds back
to itself. -/
lemma QuestionResult.saved_of_validate {result : QuestionResult}
    {required : QuestionRequirements} (h : result.validate question required = .ok ()) :
    result.saved.validateShape = .ok () ∧
      (∀ x ∈ result.floats, Platform.isFinite x = true) ∧
      result.saved.bind question = .ok result := by
  unfold validate at h
  cases result with
  | choice result =>
    cases question with
    | score | noul => cases h
    | choice text criteria =>
      obtain ⟨_, hvalid, -⟩ := Except.of_bind_ok h
      obtain ⟨_, _, heq, hquest, hout, hlabels⟩ := ChoiceResult.of_validate hvalid
      cases heq
      obtain ⟨hconf, hdistr⟩ := ChoiceResult.details_of_validate hvalid
      obtain ⟨hnodup, hids⟩ := Question.labels_of_validate hquest
      have htwo := (Question.two_le_of_validate hquest).1 text criteria rfl
      obtain ⟨output, probabilities, confidence⟩ := result
      refine ⟨?_, ?_, ?_⟩
      · unfold saved SavedQuestionResult.validateShape
        refine Except.refuse_ok (by rw [hids _ hout]; exact Bool.false_ne_true) ?_
        cases probabilities with
        | none => exact hconf
        | some probabilities =>
          obtain ⟨hsize, hall⟩ := hlabels probabilities rfl
          have hkeys : (probabilities.keys.any fun label => !isIdentifier label) = false := by
            rw [List.any_eq_false]
            intro label hlabel
            rw [← Std.ExtTreeMap.map_fst_toList_eq_keys] at hlabel
            rw [hids label ((labels_perm hnodup hsize hall).mem_iff.mp hlabel)]
            exact Bool.false_ne_true
          have hcontains : probabilities.contains output = true :=
            Std.ExtTreeMap.contains_iff_mem.mpr (hall _ hout)
          have hshape : ¬(decide (probabilities.size < 2) || !probabilities.contains output ||
              probabilities.keys.any fun label => !isIdentifier label) = true := by
            rw [hkeys, hcontains, hsize, decide_eq_false (Nat.not_lt.mpr htwo)]
            exact Bool.false_ne_true
          refine Except.refuse_ok hshape ?_
          show (validateDistribution (probabilities.toList.map Prod.snd) >>= _) = _
          rw [hdistr probabilities rfl]
          exact hconf
      · intro x hx
        rcases List.mem_append.mp hx with hx | hx
        · cases probabilities with
          | none => cases hx
          | some probabilities =>
            exact isFinite_of_validateDistribution (hdistr probabilities rfl) x hx
        · exact isFinite_of_validateConfidence hconf x hx
      · show (ChoiceResult.new _ output probabilities confidence).map QuestionResult.choice = _
        unfold ChoiceResult.new
        dsimp only
        rw [hvalid]
        rfl
  | score result =>
    cases question with
    | choice | noul => cases h
    | score text criteria =>
      obtain ⟨_, hvalid, -⟩ := Except.of_bind_ok h
      obtain ⟨_, _, heq, hquest, hrange, hconf, hdetails⟩ :=
        ScoreResult.details_of_validate hvalid
      cases heq
      have htwo := (Question.two_le_of_validate hquest).2 text criteria rfl
      obtain ⟨output, probabilities, confidence⟩ := result
      have hparts := hrange
      unfold inRange at hparts
      rw [Bool.and_eq_true, Bool.and_eq_true] at hparts
      obtain ⟨⟨hfinite, hzero⟩, hmaximum⟩ := hparts
      refine ⟨?_, ?_, ?_⟩
      · unfold saved SavedQuestionResult.validateShape
        refine Except.refuse_ok (by rw [hfinite, hzero]; exact Bool.false_ne_true) ?_
        cases probabilities with
        | none => exact hconf
        | some probabilities =>
          obtain ⟨hlen, hdistr⟩ := hdetails probabilities rfl
          have hshape : ¬(decide (probabilities.length < 2) || !Platform.f64Le output
              (Platform.f64OfDecimal (toString (probabilities.length - 1)))) = true := by
            rw [hlen, hmaximum, decide_eq_false (Nat.not_lt.mpr htwo)]
            exact Bool.false_ne_true
          refine Except.refuse_ok hshape ?_
          show (validateDistribution probabilities >>= _) = _
          rw [hdistr]
          exact hconf
      · intro x hx
        rcases List.mem_cons.mp hx with rfl | hx
        · exact hfinite
        rcases List.mem_append.mp hx with hx | hx
        · cases probabilities with
          | none => cases hx
          | some probabilities =>
            exact isFinite_of_validateDistribution (hdetails probabilities rfl).2 x hx
        · exact isFinite_of_validateConfidence hconf x hx
      · show (ScoreResult.new _ output probabilities confidence).map QuestionResult.score = _
        unfold ScoreResult.new
        dsimp only
        rw [hvalid]
        rfl
  | noul result =>
    cases question with
    | choice | score => cases h
    | noul text =>
      obtain ⟨_, hvalid, -⟩ := Except.of_bind_ok h
      refine ⟨hvalid, fun x hx => ?_, ?_⟩
      · obtain rfl := List.mem_singleton.mp hx
        exact isFinite_of_validateProbability hvalid
      · show (NoulResult.new result.output).map QuestionResult.noul = _
        unfold NoulResult.new
        rw [hvalid]
        rfl

/-! ### Decisions -/

lemma DecisionBlock.outputs_of_validate {block : DecisionBlock} (h : block.validate = .ok ()) :
    block.outputs ≠ [] ∧ block.outputs.length ≤ MAX_QUESTIONS_PER_DECISION ∧
      (∀ output ∈ block.outputs, isIdentifier output.name = true) ∧
      (block.outputs.map NamedQuestion.name).Nodup := by
  unfold validate at h
  obtain ⟨-, h⟩ := Except.of_refuse_ok h
  obtain ⟨hcount, h⟩ := Except.of_refuse_ok h
  simp only [Bool.or_eq_true, List.isEmpty_iff, decide_eq_true_eq, not_or, Nat.not_lt] at hcount
  obtain ⟨houts, hnodup, -⟩ := forUnique_ok_iff.mp h
  refine ⟨hcount.1, hcount.2, fun output houtput => ?_, hnodup⟩
  have hname := (houts output houtput).1
  split_ifs at hname with hident
  exact hident

omit [Platform] in
lemma questionIndex_eq {decl : DecisionBlock}
    (hnames : (decl.outputs.map NamedQuestion.name).Nodup) {i : Nat}
    (hi : i < decl.outputs.length) :
    questionIndex decl decl.outputs[i].name = i := by
  have hindex := hnames.idxOf_getElem i (by rwa [List.length_map])
  rwa [List.getElem_map, List.idxOf, List.findIdx_map] at hindex

/-- **A decision result that validates** has the shape of saved ones, prints, and binds back to
itself. -/
lemma DecisionResult.saved_of_validate {result : DecisionResult} {decl : DecisionBlock}
    {reqs : List QuestionRequirements}
    (h : result.validateForDeclaration decl reqs = .ok ()) :
    result.saved.validateShape = .ok () ∧ result.Printable ∧
      result.saved.bind decl reqs = .ok result := by
  obtain ⟨hdec, htries⟩ := DecisionResult.of_validateForDeclaration h
  obtain ⟨-, hans⟩ := DecisionResult.answers_of_validate h
  unfold validateForDeclaration at h
  obtain ⟨-, h⟩ := Except.of_refuse_ok h
  obtain ⟨_, hvalid, h⟩ := Except.of_bind_ok h
  obtain ⟨-, h⟩ := Except.of_refuse_ok h
  have hmsr : discard (measureDecisionResultsWithNext [] result) = .ok () := h
  obtain ⟨_, hdecl, -⟩ := Except.of_bind_ok hvalid
  have hblock := orResultError_ok hdecl
  obtain ⟨hne, hmany, hids, hnames⟩ := DecisionBlock.outputs_of_validate hblock
  obtain ⟨hlen, hall⟩ := List.forall₂_iff_get.mp hans
  have hanswer : ∀ answer ∈ result.answers, ∃ output ∈ decl.outputs,
      answer.name = output.name ∧
        ∃ required, answer.result.validate output.question required = .ok () := by
    intro answer hmem
    obtain ⟨i, hi, rfl⟩ := List.getElem_of_mem hmem
    exact ⟨decl.outputs[i], List.getElem_mem _, hall i hi (hlen ▸ hi)⟩
  have hanswerNames : result.answers.map NamedAnswer.name =
      decl.outputs.map NamedQuestion.name := by
    refine List.ext_getElem (by simpa using hlen) fun i hi hi' => ?_
    rw [List.getElem_map, List.getElem_map]
    exact (hall i (by simpa using hi) (by simpa using hi')).1
  refine ⟨?_, ⟨?_, htries⟩, ?_⟩
  · unfold saved SavedDecision.validateShape
    refine Except.refuse_ok ?_ ?_
    · have hident := DecisionBlock.isIdentifier_of_validate hblock
      have hsome : result.answers ≠ [] := by
        intro hnil
        rw [hnil] at hlen
        exact hne (List.length_eq_zero_iff.mp hlen.symm)
      have hfew : result.answers.length ≤ MAX_QUESTIONS_PER_DECISION := hlen ▸ hmany
      rcases htries with hn | hn <;>
        simp [hdec, hident, hn, hsome, hfew]
    · refine forUnique_ok_iff.mpr ⟨fun answer hmem => ?_, ?_, fun _ _ hmem => by cases hmem⟩
      · obtain ⟨original, horig, rfl⟩ := List.mem_map.mp hmem
        obtain ⟨output, houtput, hname, required, hresult⟩ := hanswer original horig
        refine ⟨?_, (QuestionResult.saved_of_validate hresult).1⟩
        show (if isIdentifier original.name then _ else _) = _
        rw [hname, hids output houtput]
        rfl
      · show ((result.answers.map NamedAnswer.saved).map SavedAnswer.name).Nodup
        rw [List.map_map]
        exact hanswerNames ▸ hnames
  · intro answer hmem
    obtain ⟨output, -, -, required, hresult⟩ := hanswer answer hmem
    exact (QuestionResult.saved_of_validate hresult).2.1
  · have hbind : (result.answers.map NamedAnswer.saved).mapM (SavedAnswer.bind decl) =
        .ok result.answers := by
      refine Except.mapM_map_ok fun answer hmem => ?_
      obtain ⟨output, houtput, hname, required, hresult⟩ := hanswer answer hmem
      have hfind : decl.outputs.find? (fun question => question.name == answer.name) =
          some output := hname ▸ find?_question hnames houtput
      have hident : isIdentifier answer.name = true := hname ▸ hids output houtput
      unfold SavedAnswer.bind
      dsimp only [NamedAnswer.saved]
      rw [hfind]
      show (answer.result.saved.bind output.question >>= _) = _
      rw [(QuestionResult.saved_of_validate hresult).2.2]
      exact if_pos hident
    have hsorted : result.answers.mergeSort (fun a b =>
        questionIndex decl a.name ≤ questionIndex decl b.name) = result.answers := by
      refine List.mergeSort_of_pairwise (List.pairwise_iff_getElem.mpr fun i j hi hj hij => ?_)
      have hplace : ∀ k (hk : k < result.answers.length),
          questionIndex decl result.answers[k].name = k := by
        intro k hk
        have hname : result.answers[k].name = (decl.outputs.get ⟨k, hlen ▸ hk⟩).name :=
          (hall k hk (hlen ▸ hk)).1
        rw [hname]
        exact questionIndex_eq hnames (hlen ▸ hk)
      rw [hplace i hi, hplace j hj]
      exact decide_eq_true hij.le
    unfold SavedDecision.bind
    refine Except.refuse_ok (not_not.mpr hdec) ?_
    refine Except.refuse_ok (not_not.mpr (by rw [← hlen]; exact List.length_map _)) ?_
    show ((result.answers.map NamedAnswer.saved).mapM (SavedAnswer.bind decl) >>= _) = _
    rw [hbind]
    show DecisionResult.new decl reqs result.answers result.attempts = _
    unfold DecisionResult.new
    rw [hvalid]
    show (discard (measureDecisionResultsWithNext [] ⟨_, result.answers.mergeSort _, _⟩) >>= _) = _
    rw [hsorted, ← hdec, hmsr]
    rfl

end Binding

end Antiburn
