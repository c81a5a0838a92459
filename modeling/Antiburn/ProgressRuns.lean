/-
Saved progress is the set of reachable histories.

The validator accepts the rows of every history that fits the result limits and
no others; the evaluation loop writes the same rows.
-/
import Antiburn.AsciiPlatform
import Antiburn.History

namespace Antiburn

section ProgressRuns

variable [Platform]
variable {declarations : List DecisionBlock} {requirements : List QuestionRequirements}

/-! ### Collecting the rows -/

variable {blocks : List DecisionBlock} {rows : List SavedDecisionAttempt} {map : ProgressRows}

lemma insertRows_ok {map' : ProgressRows} {before : List SavedDecisionAttempt}
    (h : insertRows declarations map rows = .ok map') (hmap : map.Holds before) :
    map'.Holds (before ++ rows) ∧ map'.size = map.size + rows.length := by
  induction rows generalizing map before with
  | nil =>
    cases h
    rw [List.append_nil]
    exact ⟨hmap, rfl⟩
  | cons row rest ih =>
    rw [insertRows] at h
    rcases hvalid : row.attempt.validate with error | ⟨⟩
    · rw [hvalid] at h
      cases h
    rw [hvalid] at h
    by_cases hbad : (!declarations.any (fun block => block.name == row.attempt.decision) ||
        map.contains row.attempt) = true
    · replace h := (if_pos hbad).symm.trans h
      cases h
    replace h := (if_neg hbad).symm.trans h
    have hcont : map.contains row.attempt = false := by
      rw [Bool.or_eq_true, not_or] at hbad
      exact Bool.eq_false_iff.mpr hbad.2
    have hnone : map[row.attempt]? = none := by
      rw [Std.ExtTreeMap.contains_eq_isSome_getElem?] at hcont
      exact Option.not_isSome_iff_eq_none.mp (Bool.eq_false_iff.mp hcont)
    obtain ⟨hholds, hsize⟩ := ih h (hmap.insert hnone)
    rw [List.append_assoc] at hholds
    refine ⟨hholds, ?_⟩
    rw [hsize, Std.ExtTreeMap.size_insert, if_neg, List.length_cons]
    · omega
    · exact Bool.eq_false_iff.mp hcont

lemma insertRows_of {before : List SavedDecisionAttempt}
    (hrows : ∀ row ∈ rows, row.attempt.validate = .ok () ∧
      ∃ block ∈ declarations, block.name = row.attempt.decision)
    (hnodup : ((before ++ rows).map SavedDecisionAttempt.attempt).Nodup)
    (hmap : map.Holds before) : ∃ map', insertRows declarations map rows = .ok map' := by
  induction rows generalizing map before with
  | nil => exact ⟨map, rfl⟩
  | cons row rest ih =>
    rw [List.forall_mem_cons] at hrows
    obtain ⟨⟨hvalid, block, hblock, hname⟩, hrest⟩ := hrows
    have hnone : map[row.attempt]? = none := by
      refine hmap.lookup_eq_none fun r hr heq => ?_
      rw [List.map_append, List.nodup_append] at hnodup
      exact hnodup.2.2 _ (List.mem_map_of_mem hr) _ (List.mem_map_of_mem List.mem_cons_self) heq
    have hcont : map.contains row.attempt = false := by
      rw [Std.ExtTreeMap.contains_eq_isSome_getElem?, hnone]
      rfl
    have hdecl : declarations.any (fun block => block.name == row.attempt.decision) = true :=
      List.any_eq_true.mpr ⟨block, hblock, beq_iff_eq.mpr hname⟩
    rw [List.append_cons] at hnodup
    obtain ⟨map', hmap'⟩ := ih hrest hnodup (hmap.insert hnone)
    refine ⟨map', ?_⟩
    rw [insertRows, hvalid, hdecl, hcont]
    exact hmap'

/-! ### Walking the decisions -/

lemma walkDecision_none (unfinished : Nat) (block : DecisionBlock) (map : ProgressRows)
    (answers : List DecisionResult) :
    walkDecision requirements unfinished block ⟨map, answers, none⟩ =
      match currentAttempt map[(⟨block.name, 1⟩ : DecisionAttempt)]?
          map[(⟨block.name, 2⟩ : DecisionAttempt)]? with
      | none => .error invalidProgress
      | some (number, outcome) => readDecision requirements unfinished block
          ⟨map.without block.name, answers, none⟩ number outcome := by
  rw [walkDecision]
  simp only [ProgressRows.lookup_second, Option.isSome_none, Bool.false_eq_true, if_false]
  rfl

lemma walkDecision_some (unfinished : Nat) (block : DecisionBlock) (map : ProgressRows)
    (answers : List DecisionResult) (state : DecisionProgressState) :
    walkDecision requirements unfinished block ⟨map, answers, some state⟩ =
      if map[(⟨block.name, 1⟩ : DecisionAttempt)]?.isSome ||
          map[(⟨block.name, 2⟩ : DecisionAttempt)]?.isSome then .error invalidProgress
      else .ok ⟨map.without block.name, answers, some state⟩ := by
  rw [walkDecision]
  simp only [ProgressRows.lookup_second, Option.isSome_some, if_true]
  rfl

lemma walkDecisions_some
    {answers : List DecisionResult} {state : DecisionProgressState} {walk : ProgressWalk}
    (h : walkDecisions requirements blocks ⟨map, answers, some state⟩ = .ok walk) :
    walk = ⟨map, answers, some state⟩ := by
  induction blocks generalizing map with
  | nil =>
    cases h
    rfl
  | cons block rest ih =>
    rw [walkDecisions, walkDecision_some] at h
    split at h
    case isTrue => cases h
    case isFalse hrows =>
      rw [Bool.or_eq_true, not_or] at hrows
      have h₁ := Option.not_isSome_iff_eq_none.mp hrows.1
      have h₂ := Option.not_isSome_iff_eq_none.mp hrows.2
      rw [ProgressRows.without_eq_self h₁ h₂] at h
      exact ih h

lemma walkDecisions_empty (blocks : List DecisionBlock) (answers : List DecisionResult)
    (state : DecisionProgressState) :
    walkDecisions requirements blocks ⟨∅, answers, some state⟩ = .ok ⟨∅, answers, some state⟩ := by
  induction blocks with
  | nil => rfl
  | cons block rest ih =>
    have hempty : ProgressRows.without ∅ block.name = ∅ :=
      ProgressRows.without_eq_self (by simp) (by simp)
    rw [walkDecisions, walkDecision_some]
    simp only [Std.ExtTreeMap.getElem?_empty, Option.isSome_none, Bool.or_self, Bool.false_eq_true,
      if_false, hempty]
    exact ih

/-- **The validator walks the rows of a history to its state.** -/
lemma History.walk
    {results : List DecisionResult} {state : Option DecisionProgressState}
    (h : History requirements blocks rows results state)
    (hnames : (blocks.map DecisionBlock.name).Nodup)
    (hids : ∀ block ∈ blocks, isIdentifier block.name = true)
    {map : ProgressRows} (answers : List DecisionResult) (hmap : map.Holds rows) :
    walkDecisions requirements blocks ⟨map, answers, none⟩ = .ok ⟨∅, answers ++ results, state⟩ := by
  have hempty : ∀ {map : ProgressRows}, map.Holds [] → map = ∅ := by
    intro map hmap
    apply Std.ExtTreeMap.ext_getElem?
    intro attempt
    rw [hmap.lookup_eq_none (by simp)]
    simp
  induction h generalizing map answers with
  | complete => rw [hempty hmap, List.append_nil]; rfl
  | @answered block rest rows results state retry answer hvalid htries hrest ih =>
    rw [List.map_cons, List.nodup_cons] at hnames
    have hother : ∀ row ∈ rows, row.attempt.decision ≠ block.name := by
      intro row hrow heq
      obtain ⟨⟨b, hb, hname⟩, -⟩ := hrest.mem_blocks row hrow
      exact hnames.1 (List.mem_map.mpr ⟨b, hb, hname.trans heq⟩)
    obtain ⟨h₁, h₂, hholds⟩ := hmap.without hother
    have hcur : currentAttempt (firstOutcome retry (some (.answer answer)))
        (secondOutcome retry (some (.answer answer))) =
          some (attemptNumber retry, some (.answer answer)) :=
      currentAttempt_eq fun h => by cases h
    rw [walkDecisions, walkDecision_none, h₁, h₂, hcur]
    simp only [readDecision, hvalid, htries, orInvalidProgress, Except.mapError, ne_eq,
      not_true_eq_false, if_false]
    rw [List.append_cons answers answer results]
    exact ih hnames.2 (fun b hb => hids b (List.mem_cons_of_mem _ hb)) _ hholds
  | @pending block rest retry =>
    rw [← List.append_nil (decisionRows _ _ _)] at hmap
    obtain ⟨h₁, h₂, hholds⟩ := hmap.without (fun row hrow => by cases hrow)
    have hcur : currentAttempt (firstOutcome retry none) (secondOutcome retry none) =
        some (attemptNumber retry, none) := currentAttempt_eq fun h => by cases h
    have hnew := DecisionAttempt.new_eq (attemptNumber retry)
      (hids block List.mem_cons_self) (by cases retry <;> simp [attemptNumber])
    rw [walkDecisions, walkDecision_none, h₁, h₂, hcur, hempty hholds, List.append_nil]
    simp only [readDecision, hnew]
    exact walkDecisions_empty _ _ _
  | @stopped block rest retry terminal hretry =>
    rw [← List.append_nil (decisionRows _ _ _)] at hmap
    obtain ⟨h₁, h₂, hholds⟩ := hmap.without (fun row hrow => by cases hrow)
    have hcur : currentAttempt (firstOutcome retry (some terminal.outcome))
        (secondOutcome retry (some terminal.outcome)) =
          some (attemptNumber retry, some terminal.outcome) := by
      refine currentAttempt_eq fun h => hretry ?_
      cases terminal <;> first | rfl | cases h
    rw [walkDecisions, walkDecision_none, h₁, h₂, hcur, hempty hholds, List.append_nil]
    have hread : readDecision requirements (rest.length + 1) block ⟨∅, answers, none⟩
        (attemptNumber retry) (some terminal.outcome) =
          .ok ⟨∅, answers, some (.terminal terminal)⟩ := by cases terminal <;> rfl
    simp only [hread]
    exact walkDecisions_empty _ _ _

/-- **Rows that the validator uses up are those of a history.** -/
lemma History.of_walk
    {answers : List DecisionResult} {walk : ProgressWalk}
    (h : walkDecisions requirements blocks ⟨map, answers, none⟩ = .ok walk)
    (hempty : walk.rows = ∅) :
    ∃ rows results, History requirements blocks rows results walk.state ∧
      walk.answers = answers ++ results ∧ map.Holds rows := by
  induction blocks generalizing map answers with
  | nil =>
    cases h
    have hmap : map = ∅ := hempty
    rw [hmap]
    exact ⟨[], [], .complete, (List.append_nil _).symm, ProgressRows.holds_empty⟩
  | cons block rest ih =>
    rw [walkDecisions, walkDecision_none] at h
    rcases hcur : currentAttempt map[(⟨block.name, 1⟩ : DecisionAttempt)]?
        map[(⟨block.name, 2⟩ : DecisionAttempt)]? with - | ⟨number, current⟩
    · rw [hcur] at h
      cases h
    rw [hcur] at h
    obtain ⟨retry, rfl, h₁, h₂, hretry⟩ := of_currentAttempt hcur
    -- once the state is set, the rest of the map must be empty
    have hstop : ∀ state, walkDecisions requirements rest
        ⟨map.without block.name, answers, some state⟩ = .ok walk →
          walk.state = some state ∧ walk.answers = answers ++ [] ∧
            map.Holds (decisionRows block.name retry current) := by
      intro state hwalk
      have heq := walkDecisions_some hwalk
      subst heq
      have hwithout : map.without block.name = ∅ := hempty
      have hholds := ProgressRows.Holds.of_without h₁ h₂ (hwithout ▸ ProgressRows.holds_empty)
      rw [List.append_nil] at hholds
      exact ⟨rfl, (List.append_nil _).symm, hholds⟩
    have hterm : ∀ terminal : DecisionProgressTerminal, current = some terminal.outcome →
        walkDecisions requirements rest
          ⟨map.without block.name, answers, some (.terminal terminal)⟩ = .ok walk →
        ∃ rows results, History requirements (block :: rest) rows results walk.state ∧
          walk.answers = answers ++ results ∧ map.Holds rows := by
      intro terminal heq hwalk
      obtain ⟨hstate, hans, hholds⟩ := hstop _ hwalk
      subst heq
      rw [hstate]
      refine ⟨_, _, .stopped retry terminal fun h => hretry ?_, hans, hholds⟩
      rw [h]
      rfl
    rcases current with - | outcome
    · simp only [readDecision] at h
      rcases hnew : DecisionAttempt.new block.name (attemptNumber retry) with error | attempt
      · rw [hnew] at h
        cases h
      rw [hnew] at h
      have htry : attempt = ⟨block.name, attemptNumber retry⟩ := by
        rw [DecisionAttempt.new] at hnew
        rcases hvalid : (⟨block.name, attemptNumber retry⟩ : DecisionAttempt).validate with
          error | ⟨⟩ <;> rw [hvalid] at hnew <;> cases hnew
        rfl
      subst htry
      obtain ⟨hstate, hans, hholds⟩ := hstop _ h
      rw [hstate]
      exact ⟨_, _, .pending retry, hans, hholds⟩
    cases outcome with
    | dispatchIntent => exact hterm .unresolvedIntent rfl h
    | unknown => exact hterm .unknown rfl h
    | permanent => exact hterm .permanent rfl h
    | safeTransient => exact hterm .attemptsExhausted rfl h
    | answer answer =>
      simp only [readDecision] at h
      rcases hvalid : answer.validateForDeclaration block requirements with error | ⟨⟩
      · rw [hvalid] at h
        cases h
      rw [hvalid] at h
      by_cases htries : answer.attempts = attemptNumber retry
      · simp only [orInvalidProgress, Except.mapError, htries, ne_eq, not_true_eq_false,
          if_false] at h
        obtain ⟨rows, results, hhistory, hans, hholds⟩ := ih h
        refine ⟨_, _, .answered retry answer hvalid htries hhistory, ?_,
          ProgressRows.Holds.of_without h₁ h₂ hholds⟩
        rw [hans, List.append_assoc]
        rfl
      · simp only [orInvalidProgress, Except.mapError, ne_eq, htries, not_false_eq_true,
          if_true] at h
        cases h

/-! ### Failures -/

def FailsInvalid {α : Type} (result : Except StoreError α) : Prop :=
  ∀ error, result = .error error → error = invalidProgress

namespace FailsInvalid

variable {α β : Type}

omit [Platform] in
lemma ok (value : α) : FailsInvalid (.ok value) := fun _ h => by cases h

omit [Platform] in
lemma invalid : FailsInvalid (.error invalidProgress : Except StoreError α) := by
  intro error h
  cases h
  rfl

omit [Platform] in
lemma orInvalid {ε : Type} (result : Except ε α) : FailsInvalid (orInvalidProgress result) := by
  cases result with
  | ok value => exact ok value
  | error error => exact invalid

omit [Platform] in
lemma bind {first : Except StoreError α} {rest : α → Except StoreError β}
    (hfirst : FailsInvalid first) (hrest : ∀ value, FailsInvalid (rest value)) :
    FailsInvalid (first >>= rest) := by
  cases first with
  | ok value => exact hrest value
  | error error =>
    intro error' h
    cases h
    exact hfirst error rfl

omit [Platform] in
lemma ite {cond : Prop} [Decidable cond] {first second : Except StoreError α}
    (hfirst : FailsInvalid first) (hsecond : FailsInvalid second) :
    FailsInvalid (if cond then first else second) := by
  split
  case isTrue => exact hfirst
  case isFalse => exact hsecond

lemma insertRows (rows : List SavedDecisionAttempt) (map : ProgressRows) :
    FailsInvalid (insertRows declarations map rows) := by
  induction rows generalizing map with
  | nil => exact ok map
  | cons row rest ih =>
    refine bind (orInvalid _) fun _ => ite (bind invalid fun _ => ?_) (ih _)
    exact ih _

lemma walkDecision (unfinished : Nat) (block : DecisionBlock) (walk : ProgressWalk) :
    FailsInvalid (walkDecision requirements unfinished block walk) := by
  obtain ⟨map, answers, state⟩ := walk
  cases state with
  | some state =>
    rw [walkDecision_some]
    exact ite invalid (ok _)
  | none =>
    rw [walkDecision_none]
    rcases currentAttempt map[(⟨block.name, 1⟩ : DecisionAttempt)]?
      map[(⟨block.name, 2⟩ : DecisionAttempt)]? with - | ⟨number, current⟩
    · exact invalid
    rcases current with - | outcome
    · exact bind (orInvalid _) fun _ => ok _
    · cases outcome with
      | answer answer =>
        exact bind (orInvalid _) fun _ => ite (bind invalid fun _ => ok _) (ok _)
      | _ => exact ok _

lemma walkDecisions (blocks : List DecisionBlock) (walk : ProgressWalk) :
    FailsInvalid (walkDecisions requirements blocks walk) := by
  induction blocks generalizing walk with
  | nil => exact ok walk
  | cons block rest ih => exact bind (FailsInvalid.walkDecision _ _ _) ih

lemma validateDecisionProgress (rows : List SavedDecisionAttempt) :
    FailsInvalid (validateDecisionProgress declarations requirements rows) := by
  refine bind (orInvalid _) fun _ => bind (FailsInvalid.insertRows _ _) fun map =>
    bind (FailsInvalid.walkDecisions _ _) fun walk => ?_
  refine ite (bind invalid fun _ => ?_) ?_
  all_goals
    refine bind ?_ fun _ => ?_
    · cases measureJson (resultDocument walk.answers map.size) RESULT_LIMITS with
      | ok value => exact ok ()
      | error error => exact invalid
    · cases walk.state with
      | some state => exact ok _
      | none => exact bind (orInvalid _) fun _ => ite (bind invalid fun _ => ok _) (ok _)

end FailsInvalid

/-! ### Rows that validate -/

def FitsLimits (rows : List SavedDecisionAttempt) : Prop :=
  FitsResultLimits (savedAnswers rows) rows.length

variable {attempt : DecisionAttempt} {results : List DecisionResult}
  {rows rows' : List SavedDecisionAttempt} {state : Option DecisionProgressState}
  {validated : ValidatedDecisionProgress}

lemma FitsLimits.perm (hperm : rows.Perm rows')
    (h : FitsLimits rows) : FitsLimits rows' := by
  have hans : (savedAnswers rows).Perm (savedAnswers rows') := hperm.filterMap _
  rw [FitsLimits, ← hperm.length_eq]
  exact FitsResultLimits.perm hans h

lemma FitsLimits.of_append {rest : List SavedDecisionAttempt}
    (h : FitsLimits (rows ++ rest)) : FitsLimits rows :=
  FitsResultLimits.mono ((List.sublist_append_left rows rest).filterMap _)
    (by rw [List.length_append]; exact Nat.le_add_right _ _) h

def progressState (results : List DecisionResult) (attempts : Nat)
    (state : Option DecisionProgressState) : DecisionProgressState :=
  state.getD (.complete ⟨RESULT_VERSION, results, attempts⟩)

lemma History.assessment
    (hrequirements : validateRequirements declarations requirements = .ok ())
    (h : History requirements declarations rows results none)
    (hfits : FitsResultLimits results rows.length) :
    EvaluatedAssessment.new declarations requirements results =
      .ok ⟨RESULT_VERSION, results, rows.length⟩ := by
  rw [h.length_of_complete] at hfits ⊢
  exact EvaluatedAssessment.new_eq hrequirements h.results_valid hfits

/-- **The rows of a history validate, in any order.** -/
lemma History.validate
    (hrequirements : validateRequirements declarations requirements = .ok ())
    (h : History requirements declarations rows results state) (hfits : FitsLimits rows)
    (hperm : rows.Perm rows') :
    validateDecisionProgress declarations requirements rows' =
      .ok ⟨rows.length, progressState results rows.length state⟩ := by
  obtain ⟨hnames, hids⟩ := validateDeclarations_of_validateRequirements hrequirements
  have hvalid : ∀ row ∈ rows', row.attempt.validate = .ok () ∧
      ∃ block ∈ declarations, block.name = row.attempt.decision := by
    intro row hrow
    obtain ⟨⟨block, hblock, hname⟩, hnumber⟩ := h.mem_blocks row (hperm.mem_iff.mpr hrow)
    exact ⟨DecisionAttempt.validate_ok_iff.mpr ⟨hname ▸ hids block hblock, hnumber⟩,
      block, hblock, hname⟩
  have hnodup' : ((([] : List SavedDecisionAttempt) ++ rows').map
      SavedDecisionAttempt.attempt).Nodup := (hperm.map _).nodup (h.nodup hnames)
  obtain ⟨map, hmap⟩ := insertRows_of hvalid hnodup' ProgressRows.holds_empty
  obtain ⟨hholds, hsize⟩ := insertRows_ok hmap ProgressRows.holds_empty
  have htries : map.size = rows.length := by
    rw [hsize, Std.ExtTreeMap.size_empty, Nat.zero_add, hperm.length_eq]
  have hwalk := h.walk hnames hids [] (hholds.perm hperm.symm)
  have hfits' : FitsResultLimits results rows.length := by
    rw [← h.savedAnswers_eq]
    exact hfits
  have hmsr : discard (orInvalidProgress
      (measureJson (resultDocument results rows.length) RESULT_LIMITS)) = .ok () := by
    rw [Except.discard_ok_iff, orInvalidProgress, Except.isOk_mapError]
    exact (measureJson_resultDocument results rows.length).mpr hfits'
  rw [validateDecisionProgress, hrequirements, hmap]
  show (do
    let walk ← walkDecisions requirements declarations ⟨map, [], none⟩
    _) = _
  rw [hwalk, List.nil_append, htries]
  show (do
    discard (orInvalidProgress (measureJson (resultDocument results rows.length) RESULT_LIMITS))
    _) = _
  rw [hmsr]
  cases state with
  | some state => rfl
  | none =>
    show (do
      let evaluated ← orInvalidProgress (EvaluatedAssessment.new declarations requirements results)
      _) = _
    rw [h.assessment hrequirements hfits']
    show (if rows.length ≠ rows.length then _ else _) = _
    rw [if_neg (not_not.mpr rfl)]
    rfl

section

variable (h : validateDecisionProgress declarations requirements rows = .ok validated)
include h

/-- **Rows that validate are those of a history, in some order.** -/
lemma History.of_validate :
    ∃ rows' results state, History requirements declarations rows' results state ∧
      rows'.Perm rows ∧ FitsLimits rows := by
  rw [validateDecisionProgress] at h
  obtain ⟨-, -, h⟩ := Except.of_bind_ok h
  obtain ⟨map, hmap, h⟩ := Except.of_bind_ok h
  obtain ⟨walk, hwalk, h⟩ := Except.of_bind_ok h
  obtain ⟨hholds, hsize⟩ := insertRows_ok hmap ProgressRows.holds_empty
  by_cases hempty : walk.rows.isEmpty = true
  · obtain ⟨⟨⟩, hmsr, -⟩ := Except.of_bind_ok ((if_neg (by simp [hempty])).symm.trans h)
    have hrows : walk.rows = ∅ := Std.ExtTreeMap.isEmpty_iff.mp hempty
    obtain ⟨rows', results, hhistory, hans, hholds'⟩ := History.of_walk hwalk hrows
    have hperm : rows'.Perm rows := hholds'.unique hholds
    refine ⟨rows', results, walk.state, hhistory, hperm, FitsLimits.perm hperm ?_⟩
    rw [FitsLimits, hhistory.savedAnswers_eq, hperm.length_eq, ← measureJson_resultDocument]
    rw [Std.ExtTreeMap.size_empty, Nat.zero_add] at hsize
    rw [hans, List.nil_append, hsize, Except.discard_ok_iff, orInvalidProgress,
      Except.isOk_mapError] at hmsr
    exact hmsr
  · cases (if_pos (by simp [hempty])).symm.trans h

lemma validateRequirements_of_validate :
    validateRequirements declarations requirements = .ok () := by
  rw [validateDecisionProgress] at h
  obtain ⟨⟨⟩, hrequirements, -⟩ := Except.of_bind_ok h
  exact Except.mapError_ok_iff.mp hrequirements

end

lemma History.validated_eq
    (h : History requirements declarations rows results state)
    (hvalidated : validateDecisionProgress declarations requirements rows = .ok validated) :
    validated = ⟨rows.length, progressState results rows.length state⟩ := by
  obtain ⟨-, -, -, -, -, hfits⟩ := History.of_validate hvalidated
  have hown := h.validate (validateRequirements_of_validate hvalidated) hfits (List.Perm.refl rows)
  rw [hvalidated] at hown
  cases hown
  rfl

lemma validateDecisionProgress_perm
    (hperm : rows.Perm rows') :
    validateDecisionProgress declarations requirements rows =
      validateDecisionProgress declarations requirements rows' := by
  have hmono : ∀ {rows rows' : List SavedDecisionAttempt} {validated}, rows.Perm rows' →
      validateDecisionProgress declarations requirements rows = .ok validated →
      validateDecisionProgress declarations requirements rows' = .ok validated := by
    intro rows rows' validated hperm hvalidated
    obtain ⟨rows₀, results, state, hhistory, hperm₀, hfits⟩ := History.of_validate hvalidated
    have hrequirements := validateRequirements_of_validate hvalidated
    have hfits₀ := hfits.perm hperm₀.symm
    rw [← hvalidated, hhistory.validate hrequirements hfits₀ hperm₀,
      hhistory.validate hrequirements hfits₀ (hperm₀.trans hperm)]
  have herror : ∀ rows, FailsInvalid (validateDecisionProgress declarations requirements rows) :=
    FailsInvalid.validateDecisionProgress
  rcases h : validateDecisionProgress declarations requirements rows with error | validated
  · rcases h' : validateDecisionProgress declarations requirements rows' with error' | validated
    · rw [herror _ _ h, herror _ _ h']
    · rw [hmono hperm.symm h'] at h
      cases h
  · exact (hmono hperm h).symm

/-! ### Runs of the loop -/

lemma validateAnswer_ok {answer answer' : DecisionResult}
    {progress : List SavedDecisionAttempt}
    (h : validateAnswer declarations requirements attempt answer progress = .ok answer') :
    answer' = answer ∧ answer.attempts = attempt.number ∧
      ∃ block, declarations.find? (fun block => block.name == attempt.decision) = some block ∧
        answer.validateForDeclaration block requirements = .ok () := by
  rw [validateAnswer] at h
  rcases hfind : declarations.find? (fun block => block.name == attempt.decision) with - | block
  · rw [hfind] at h
    cases h
  rw [hfind] at h
  obtain ⟨⟨⟩, hvalid, h⟩ := Except.of_bind_ok h
  by_cases htries : answer.attempts = attempt.number
  · obtain ⟨-, -, h⟩ := Except.of_bind_ok ((if_neg (not_not.mpr htries)).symm.trans h)
    cases h
    exact ⟨rfl, htries, block, hfind, Except.mapError_ok_iff.mp hvalid⟩
  · cases (if_pos htries).symm.trans h

lemma AttemptEnd.admits (hnames : (declarations.map DecisionBlock.name).Nodup)
    (attempt : DecisionAttempt) (progress : List SavedDecisionAttempt) (ending : AttemptEnd) :
    History.Admits requirements declarations attempt
      (ending.outcome declarations requirements attempt progress) := by
  intro answer hanswer
  cases ending with
  | unsettled => cases hanswer
  | returned evaluated =>
    rw [AttemptEnd.outcome, settleDecisionAttempt] at hanswer
    rcases hsett : (evaluated.bind fun answer =>
      validateAnswer declarations requirements attempt answer progress) with failure | result
    · rw [hsett] at hanswer
      rcases failure with ⟨code, kind, detail, attempts⟩
      cases kind <;> cases hanswer
    · rw [hsett] at hanswer
      cases hanswer
      obtain ⟨answer', -, hvalid⟩ := Except.of_bind_ok hsett
      obtain ⟨rfl, htries, block, hfind, hblock⟩ := validateAnswer_ok hvalid
      refine ⟨htries, fun other hother hname => ?_⟩
      have hfind' := find?_declaration hnames hother
      rw [hname, hfind] at hfind'
      cases hfind'
      exact hblock

structure ModelLoop.Recorded (declarations : List DecisionBlock)
    (requirements : List QuestionRequirements) (loop : ModelLoop) : Prop where
  counted : loop.attempts = loop.progress.length
  history : ∃ results state, History requirements declarations loop.progress results state

/-- **A turn that writes a row keeps a history.** -/
lemma ModelLoop.Recorded.step {loop loop' : ModelLoop} {ending : AttemptEnd}
    (hstep : (modelLoop declarations requirements).step loop ending loop')
    (h : loop.Recorded declarations requirements) : loop'.Recorded declarations requirements := by
  obtain ⟨hcounted, results, state, hhistory⟩ := h
  obtain ⟨validated, hvalidated, hturn⟩ := Except.of_bind_ok hstep
  have hrequirements := validateRequirements_of_validate hvalidated
  obtain ⟨hnames, -⟩ := validateDeclarations_of_validateRequirements hrequirements
  have hstate := hhistory.validated_eq hvalidated
  subst hstate
  replace hturn := (if_neg (by simp [hcounted])).symm.trans hturn
  rcases state with - | (⟨attempt, unfinished⟩ | evaluated | terminal)
  · cases hturn
  · cases hturn
    refine ⟨?_, hhistory.snoc (AttemptEnd.admits hnames attempt loop.progress ending)⟩
    rw [List.length_append, List.length_singleton, hcounted]
  · cases hturn
  · cases hturn

lemma ModelLoop.Recorded.of_run {loop : ModelLoop} {endings : List AttemptEnd}
    (hrun : (modelLoop declarations requirements).Run {} endings loop) :
    loop.Recorded declarations requirements :=
  hrun.invariant (fun _ _ _ hstep h => h.step hstep)
    ⟨rfl, [], History.nil_of requirements declarations⟩

lemma History.exists_ending
    {unfinished : Nat} {outcome : DecisionAttemptOutcome}
    (hnames : (declarations.map DecisionBlock.name).Nodup)
    (h : History requirements declarations rows results (some (.next attempt unfinished)))
    (hfits : FitsLimits (rows ++ [⟨attempt, outcome⟩]))
    (hanswer : ∀ answer, outcome.answer? = some answer → answer.attempts = attempt.number ∧
      ∃ block ∈ declarations, block.name = attempt.decision ∧
        answer.validateForDeclaration block requirements = .ok ()) :
    ∃ ending : AttemptEnd, ending.outcome declarations requirements attempt rows = outcome := by
  cases outcome with
  | dispatchIntent => exact ⟨.unsettled, rfl⟩
  | safeTransient =>
    exact ⟨.returned (.error ⟨.rateLimited, .safeTransient, "", attempt.number⟩), rfl⟩
  | unknown => exact ⟨.returned (.error ⟨.deliveryUnknown, .unknown, "", attempt.number⟩), rfl⟩
  | permanent =>
    exact ⟨.returned (.error ⟨.invalidDecision, .permanent, "", attempt.number⟩), rfl⟩
  | answer answer =>
    obtain ⟨htries, block, hblock, hname, hvalid⟩ := hanswer answer rfl
    have hfind := find?_declaration hnames hblock
    rw [hname] at hfind
    obtain ⟨measurement, hmsr⟩ : ∃ measurement,
        measureDecisionResultsWithNext (savedAnswers rows) answer = .ok measurement := by
      -- the answers count the rows, so both documents have the same attempts
      have hlen : rows.length + 1 = (results.map DecisionResult.attempts).sum + answer.attempts :=
        h.length_of_next.trans (by rw [htries])
      have hdoc : FitsResultLimits (results ++ [answer])
          ((results.map DecisionResult.attempts).sum + answer.attempts) := by
        rw [FitsLimits, savedAnswers, List.filterMap_append, List.length_append] at hfits
        rw [← hlen, ← h.savedAnswers_eq]
        exact hfits
      have hsum : (results.map DecisionResult.attempts).sum + answer.attempts < 2 ^ 64 := by
        have hlt := hdoc.sum_lt (by
          intro result hresult
          rcases List.mem_append.mp hresult with hresult | hresult
          · exact h.results_attempts result hresult
          · rw [List.mem_singleton.mp hresult]
            rcases (DecisionResult.of_validateForDeclaration hvalid).2 with h | h <;> omega)
        rw [List.map_append, List.sum_append, List.map_singleton, List.sum_singleton] at hlt
        omega
      have hunique : ∀ result ∈ results, result.decision ≠ answer.decision := by
        rw [(DecisionResult.of_validateForDeclaration hvalid).1, hname]
        exact h.next_unanswered hnames
      rw [h.savedAnswers_eq]
      exact Except.isOk_iff.mp (measureDecisionResultsWithNext_isOk hunique hsum hdoc)
    have haccd : validateAnswer declarations requirements attempt answer rows = .ok answer := by
      rw [validateAnswer, hfind]
      simp only [hvalid, hmsr]
      show (if answer.attempts ≠ attempt.number then _ else _) = _
      rw [if_neg (not_not.mpr htries)]
      rfl
    refine ⟨.returned (.ok answer), ?_⟩
    show (settleDecisionAttempt declarations requirements attempt (.ok answer) rows).1 = _
    rw [settleDecisionAttempt, Except.bind, haccd]

lemma validateAnswer_fits {answer answer' : DecisionResult}
    {progress : List SavedDecisionAttempt}
    (h : validateAnswer declarations requirements attempt answer progress = .ok answer') :
    ∃ total, totalAttempts (savedAnswers progress) = .ok total ∧
      FitsResultLimits (savedAnswers progress ++ [answer]) (total + answer.attempts) := by
  obtain ⟨-, htries, block, hfind, hvalid⟩ := validateAnswer_ok h
  rw [validateAnswer, hfind] at h
  obtain ⟨⟨⟩, -, h⟩ := Except.of_bind_ok h
  obtain ⟨⟨⟩, hmsr, -⟩ := Except.of_bind_ok ((if_neg (not_not.mpr htries)).symm.trans h)
  rw [Except.discard_ok_iff, Except.isOk_mapError] at hmsr
  obtain ⟨measurement, hmeas⟩ := Except.isOk_iff.mp hmsr
  exact fits_of_measureDecisionResultsWithNext hmeas

lemma History.fits_snoc
    {unfinished : Nat}
    (h : History requirements declarations rows' results (some (.next attempt unfinished)))
    (hperm : rows'.Perm rows) (hcount : FitsResultLimits (savedAnswers rows) (rows.length + 1))
    (ending : AttemptEnd) :
    FitsLimits (rows ++ [⟨attempt, ending.outcome declarations requirements attempt rows⟩]) := by
  have hans : (savedAnswers rows).Perm results := by
    rw [← h.savedAnswers_eq]
    exact hperm.symm.filterMap _
  have hsum : ((savedAnswers rows).map DecisionResult.attempts).sum =
      (results.map DecisionResult.attempts).sum := (hans.map _).sum_eq
  rw [FitsLimits, savedAnswers, List.filterMap_append, List.length_append]
  show FitsResultLimits (savedAnswers rows ++ savedAnswers [_]) _
  -- only a settled answer adds to the document
  have hplain : ∀ outcome : DecisionAttemptOutcome, outcome.answer? = none →
      FitsResultLimits (savedAnswers rows ++ savedAnswers [⟨attempt, outcome⟩])
        (rows.length + 1) := by
    intro outcome hout
    have hnone : savedAnswers [⟨attempt, outcome⟩] = [] := List.filterMap_cons_none hout
    rw [hnone, List.append_nil]
    exact hcount
  cases ending with
  | unsettled => exact hplain _ rfl
  | returned evaluated =>
    rw [AttemptEnd.outcome, settleDecisionAttempt]
    rcases hsett : (evaluated.bind fun answer =>
      validateAnswer declarations requirements attempt answer rows) with failure | answer
    · rcases failure with ⟨code, kind, detail, attempts⟩
      cases kind <;> exact hplain _ rfl
    · obtain ⟨answer', -, hvalid⟩ := Except.of_bind_ok hsett
      obtain ⟨rfl, htries, -⟩ := validateAnswer_ok hvalid
      obtain ⟨total, htotal, hdoc⟩ := validateAnswer_fits hvalid
      have hlt : ((savedAnswers rows).map DecisionResult.attempts).sum < 2 ^ 64 := by
        have hlt := hcount.sum_lt fun result hresult =>
          h.results_attempts result (hans.mem_iff.mp hresult)
        omega
      rw [totalAttempts_eq _ hlt] at htotal
      cases htotal
      have hlen := h.length_of_next
      rw [hperm.length_eq, ← hsum, ← htries] at hlen
      rw [List.length_singleton, hlen]
      exact hdoc

/-- **Every history is written by a run of the loop.** -/
lemma History.exists_run
    (hrequirements : validateRequirements declarations requirements = .ok ())
    (h : History requirements declarations rows results state) (hfits : FitsLimits rows) :
    ∃ endings, (modelLoop declarations requirements).Run {} endings ⟨rows, rows.length⟩ := by
  obtain ⟨hnames, -⟩ := validateDeclarations_of_validateRequirements hrequirements
  generalize hlen : rows.length = n
  induction n generalizing rows results state with
  | zero =>
    obtain rfl := List.length_eq_zero_iff.mp hlen
    exact ⟨[], .nil _⟩
  | succ n ih =>
    obtain ⟨before, attempt, unfinished, outcome, results', rfl, hbefore, -, hanswer⟩ :=
      h.of_ne_nil (List.ne_nil_of_length_eq_add_one hlen)
    rw [List.length_append, List.length_singleton, Nat.add_right_cancel_iff] at hlen
    obtain ⟨endings, hrun⟩ := ih hbefore hfits.of_append hlen
    obtain ⟨ending, hending⟩ := hbefore.exists_ending hnames hfits hanswer
    have hvalidated := hbefore.validate hrequirements hfits.of_append (List.Perm.refl before)
    have hturn : (modelLoop declarations requirements).step ⟨before, n⟩ ending
        ⟨before ++ [⟨attempt, outcome⟩], n + 1⟩ := by
      show ModelLoop.turn declarations requirements ⟨before, n⟩ ending = _
      rw [ModelLoop.turn, hvalidated]
      show (if before.length ≠ n then _ else _) = _
      rw [if_neg (not_not.mpr hlen)]
      show Except.ok (ModelTurn.wrote ⟨before ++ [⟨attempt,
        ending.outcome declarations requirements attempt before⟩], n + 1⟩) = _
      rw [hending]
    exact ⟨endings ++ [ending], hrun.snoc hturn⟩

lemma History.rows_le_two
    (hnames : (declarations.map DecisionBlock.name).Nodup)
    (h : History requirements declarations rows results state) (decision : String) :
    (rows.filter fun row => row.attempt.decision = decision).length ≤ 2 := by
  have hnodup : ((rows.filter fun row => row.attempt.decision = decision).map
      SavedDecisionAttempt.attempt).Nodup :=
    (h.nodup hnames).sublist (List.filter_sublist.map _)
  have hsubset : (rows.filter fun row => row.attempt.decision = decision).map
      SavedDecisionAttempt.attempt ⊆ [⟨decision, 1⟩, ⟨decision, 2⟩] := by
    intro attempt htry
    obtain ⟨⟨⟨name, number⟩, outcome⟩, hrow, rfl⟩ := List.mem_map.mp htry
    obtain ⟨hmem, hname⟩ := List.mem_filter.mp hrow
    have hname : name = decision := of_decide_eq_true hname
    subst hname
    rcases (h.mem_blocks _ hmem).2 with hnumber | hnumber
    · have hnumber : number = 1 := hnumber
      rw [hnumber]
      exact List.mem_cons_self
    · have hnumber : number = 2 := hnumber
      rw [hnumber]
      exact List.mem_cons_of_mem _ List.mem_cons_self
  have hlen := (List.subperm_of_subset hnodup hsubset).length_le
  rwa [List.length_map] at hlen

/-! ### Saved progress -/

end ProgressRuns

def triage : DecisionBlock where
  name := "triage"
  input := .literal .null
  outputs := [⟨"urgent", .noul "Is this urgent?"⟩]

def triageRequirements : QuestionRequirements where
  decision := "triage"
  question := "urgent"
  kind := .noul
  criteriaCount := 0
  probabilities := false
  confidence := false

end Antiburn
