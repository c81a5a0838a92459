/-
Histories of decision progress, and their agreement with the validator and with
the runs of the evaluation loop.

A `History` follows the declarations.  Its rows are in the order in which the
loop writes them, so a history grows at its end; the validator walks the same
rows from the front.  `ProgressRows.Holds` ties the map of the validator to a
list of rows and does not see their order.
-/
import Antiburn.Progress

namespace Antiburn

section History

variable [Platform]

/-! ### Rows of one decision -/

def attemptNumber (retry : Bool) : Nat := if retry then 2 else 1

def firstOutcome (retry : Bool) (current : Option DecisionAttemptOutcome) :
    Option DecisionAttemptOutcome :=
  if retry then some .safeTransient else current

def secondOutcome (retry : Bool) (current : Option DecisionAttemptOutcome) :
    Option DecisionAttemptOutcome :=
  if retry then current else none

def decisionRows (decision : String) (retry : Bool) (current : Option DecisionAttemptOutcome) :
    List SavedDecisionAttempt :=
  ((firstOutcome retry current).map fun outcome => ⟨⟨decision, 1⟩, outcome⟩).toList ++
    ((secondOutcome retry current).map fun outcome => ⟨⟨decision, 2⟩, outcome⟩).toList

lemma mem_decisionRows {decision : String} {retry : Bool}
    {current : Option DecisionAttemptOutcome} {attempt : DecisionAttempt}
    {outcome : DecisionAttemptOutcome} :
    (⟨attempt, outcome⟩ : SavedDecisionAttempt) ∈ decisionRows decision retry current ↔
      (attempt = ⟨decision, 1⟩ ∧ firstOutcome retry current = some outcome) ∨
        (attempt = ⟨decision, 2⟩ ∧ secondOutcome retry current = some outcome) := by
  rw [decisionRows, List.mem_append]
  refine or_congr ?_ ?_
  · cases firstOutcome retry current <;> simp [eq_comm]
  · cases secondOutcome retry current <;> simp [eq_comm]

lemma nodup_decisionRows (decision : String) (retry : Bool)
    (current : Option DecisionAttemptOutcome) :
    ((decisionRows decision retry current).map SavedDecisionAttempt.attempt).Nodup := by
  rw [decisionRows]
  cases firstOutcome retry current <;> cases secondOutcome retry current <;> simp

lemma decisionRows_some (decision : String) (retry : Bool) (outcome : DecisionAttemptOutcome) :
    decisionRows decision retry (some outcome) =
      decisionRows decision retry none ++ [⟨⟨decision, attemptNumber retry⟩, outcome⟩] := by
  cases retry <;> rfl

lemma currentAttempt_eq {retry : Bool} {current : Option DecisionAttemptOutcome}
    (h : current = some .safeTransient → retry = true) :
    currentAttempt (firstOutcome retry current) (secondOutcome retry current) =
      some (attemptNumber retry, current) := by
  cases retry with
  | true => rfl
  | false =>
    rcases current with - | outcome
    · rfl
    · cases outcome with
      | safeTransient => cases h rfl
      | _ => rfl

lemma of_currentAttempt {first second current : Option DecisionAttemptOutcome} {number : Nat}
    (h : currentAttempt first second = some (number, current)) :
    ∃ retry, number = attemptNumber retry ∧ first = firstOutcome retry current ∧
      second = secondOutcome retry current ∧ (current = some .safeTransient → retry = true) := by
  rcases first with - | first
  · rcases second with - | second
    · cases h
      exact ⟨false, rfl, rfl, rfl, fun h => by cases h⟩
    · cases h
  · cases first with
    | safeTransient =>
      cases h
      exact ⟨true, rfl, rfl, rfl, fun _ => rfl⟩
    | dispatchIntent | unknown | permanent | answer =>
      rcases second with - | second
      · cases h
        exact ⟨false, rfl, rfl, rfl, fun h => by cases h⟩
      · cases h

/-! ### Histories -/

def DecisionProgressTerminal.outcome : DecisionProgressTerminal → DecisionAttemptOutcome
  | unresolvedIntent => .dispatchIntent
  | unknown => .unknown
  | permanent => .permanent
  | attemptsExhausted => .safeTransient

/-- The rows that an evaluation of the decisions can have written, with the
answers among them and where the evaluation stands; no state means that every
decision is answered. -/
inductive History (requirements : List QuestionRequirements) :
    List DecisionBlock → List SavedDecisionAttempt → List DecisionResult →
      Option DecisionProgressState → Prop
  | complete : History requirements [] [] [] none
  | answered {block rest rows results state} (retry : Bool) (answer : DecisionResult)
      (hvalid : answer.validateForDeclaration block requirements = .ok ())
      (hattempts : answer.attempts = attemptNumber retry)
      (hrest : History requirements rest rows results state) :
      History requirements (block :: rest)
        (decisionRows block.name retry (some (.answer answer)) ++ rows) (answer :: results) state
  | pending {block rest} (retry : Bool) :
      History requirements (block :: rest) (decisionRows block.name retry none) []
        (some (.next ⟨block.name, attemptNumber retry⟩ (rest.length + 1)))
  | stopped {block rest} (retry : Bool) (terminal : DecisionProgressTerminal)
      (hretry : terminal = .attemptsExhausted → retry = true) :
      History requirements (block :: rest)
        (decisionRows block.name retry (some terminal.outcome)) [] (some (.terminal terminal))

namespace History

variable {reqs : List QuestionRequirements} {blocks : List DecisionBlock}
  {rows : List SavedDecisionAttempt} {results : List DecisionResult}
  {state : Option DecisionProgressState}

lemma mem_blocks (h : History reqs blocks rows results state) :
    ∀ row ∈ rows, (∃ block ∈ blocks, block.name = row.attempt.decision) ∧
      (row.attempt.number = 1 ∨ row.attempt.number = 2) := by
  have hdec : ∀ (block : DecisionBlock) (rest : List DecisionBlock) retry current,
      ∀ row ∈ decisionRows block.name retry current,
        (∃ b ∈ block :: rest, b.name = row.attempt.decision) ∧
          (row.attempt.number = 1 ∨ row.attempt.number = 2) := by
    rintro block rest retry current ⟨attempt, outcome⟩ hrow
    rcases mem_decisionRows.mp hrow with ⟨rfl, -⟩ | ⟨rfl, -⟩
    · exact ⟨⟨block, List.mem_cons_self, rfl⟩, .inl rfl⟩
    · exact ⟨⟨block, List.mem_cons_self, rfl⟩, .inr rfl⟩
  induction h with
  | complete => intro row hrow; cases hrow
  | answered retry answer hvalid hattempts hrest ih =>
    intro row hrow
    rcases List.mem_append.mp hrow with hrow | hrow
    · exact hdec _ _ _ _ row hrow
    · obtain ⟨⟨block, hblock, hname⟩, hnumber⟩ := ih row hrow
      exact ⟨⟨block, List.mem_cons_of_mem _ hblock, hname⟩, hnumber⟩
  | pending | stopped => exact hdec _ _ _ _

lemma nodup (h : History reqs blocks rows results state)
    (hnames : (blocks.map DecisionBlock.name).Nodup) :
    (rows.map SavedDecisionAttempt.attempt).Nodup := by
  induction h with
  | complete => exact .nil
  | @answered block rest rows results state retry answer hvalid hattempts hrest ih =>
    rw [List.map_cons, List.nodup_cons] at hnames
    rw [List.map_append, List.nodup_append]
    refine ⟨nodup_decisionRows _ _ _, ih hnames.2, fun a ha b hb heq => ?_⟩
    obtain ⟨⟨attempt, outcome⟩, hrow, rfl⟩ := List.mem_map.mp ha
    obtain ⟨row, hrow', rfl⟩ := List.mem_map.mp hb
    obtain ⟨⟨other, hother, hname⟩, -⟩ := hrest.mem_blocks row hrow'
    have hdec : attempt.decision = block.name := by
      rcases mem_decisionRows.mp hrow with ⟨rfl, -⟩ | ⟨rfl, -⟩ <;> rfl
    have heq' : attempt = row.attempt := heq
    exact hnames.1 (List.mem_map.mpr ⟨other, hother, hname.trans (heq' ▸ hdec)⟩)
  | pending retry | stopped retry terminal hretry => exact nodup_decisionRows _ _ _

lemma savedAnswers_decisionRows (decision : String) (retry : Bool)
    (current : Option DecisionAttemptOutcome) :
    savedAnswers (decisionRows decision retry current) = (current.bind (·.answer?)).toList := by
  cases retry <;> rcases current with - | outcome
  · rfl
  · cases outcome <;> rfl
  · rfl
  · cases outcome <;> rfl

lemma savedAnswers_eq (h : History reqs blocks rows results state) :
    savedAnswers rows = results := by
  induction h with
  | complete => rfl
  | answered retry answer hvalid hattempts hrest ih =>
    rw [savedAnswers, List.filterMap_append]
    show savedAnswers _ ++ savedAnswers _ = _
    rw [savedAnswers_decisionRows, ih]
    rfl
  | pending retry => rw [savedAnswers_decisionRows]; rfl
  | stopped retry terminal hretry =>
    rw [savedAnswers_decisionRows]
    cases terminal <;> rfl

lemma length_decisionRows_none (decision : String) (retry : Bool) :
    (decisionRows decision retry none).length + 1 = attemptNumber retry := by
  cases retry <;> rfl

lemma length_decisionRows_some (decision : String) (retry : Bool)
    (outcome : DecisionAttemptOutcome) :
    (decisionRows decision retry (some outcome)).length = attemptNumber retry := by
  cases retry <;> rfl

lemma length_of_complete (h : History reqs blocks rows results none) :
    rows.length = (results.map DecisionResult.attempts).sum := by
  generalize hstate : (none : Option DecisionProgressState) = state at h
  induction h with
  | complete => rfl
  | answered retry answer hvalid hattempts hrest ih =>
    rw [List.length_append, length_decisionRows_some, ih hstate, List.map_cons, List.sum_cons,
      hattempts]
  | pending | stopped => cases hstate

variable {attempt : DecisionAttempt} {unfinished : Nat}

lemma length_of_next
    (h : History reqs blocks rows results (some (.next attempt unfinished))) :
    rows.length + 1 = (results.map DecisionResult.attempts).sum + attempt.number := by
  generalize hstate : some (DecisionProgressState.next attempt unfinished) = state at h
  induction h with
  | complete => cases hstate
  | answered retry answer hvalid hattempts hrest ih =>
    rw [List.length_append, length_decisionRows_some, Nat.add_assoc, ih hstate, List.map_cons,
      List.sum_cons, hattempts, Nat.add_assoc]
  | pending retry =>
    cases hstate
    rw [length_decisionRows_none, List.map_nil, List.sum_nil, Nat.zero_add]
  | stopped retry terminal hretry => cases hstate

lemma results_valid (h : History reqs blocks rows results none) :
    List.Forall₂ (fun (result : DecisionResult) block =>
      result.validateForDeclaration block reqs = .ok ()) results blocks := by
  generalize hstate : (none : Option DecisionProgressState) = state at h
  induction h with
  | complete => exact .nil
  | answered retry answer hvalid hattempts hrest ih => exact .cons hvalid (ih hstate)
  | pending | stopped => cases hstate

lemma next_declared
    (h : History reqs blocks rows results (some (.next attempt unfinished))) :
    ∃ block ∈ blocks, block.name = attempt.decision := by
  generalize hstate : some (DecisionProgressState.next attempt unfinished) = state at h
  induction h with
  | complete => cases hstate
  | answered retry answer hvalid hattempts hrest ih =>
    obtain ⟨block, hblock, hname⟩ := ih hstate
    exact ⟨block, List.mem_cons_of_mem _ hblock, hname⟩
  | pending retry =>
    cases hstate
    exact ⟨_, List.mem_cons_self, rfl⟩
  | stopped retry terminal hretry => cases hstate

lemma results_attempts (h : History reqs blocks rows results state) :
    ∀ result ∈ results, result.attempts ≤ 2 := by
  induction h with
  | complete => intro result hresult; cases hresult
  | answered retry answer hvalid hattempts hrest ih =>
    rw [List.forall_mem_cons, hattempts]
    exact ⟨by cases retry <;> decide, ih⟩
  | pending retry | stopped retry terminal hretry => intro result hresult; cases hresult

lemma next_unanswered
    (h : History reqs blocks rows results (some (.next attempt unfinished)))
    (hnames : (blocks.map DecisionBlock.name).Nodup) :
    ∀ result ∈ results, result.decision ≠ attempt.decision := by
  generalize hstate : some (DecisionProgressState.next attempt unfinished) = state at h
  induction h with
  | complete => cases hstate
  | @answered block rest rows results state retry answer hvalid hattempts hrest ih =>
    rw [List.map_cons, List.nodup_cons] at hnames
    rw [List.forall_mem_cons]
    refine ⟨fun heq => ?_, ih hnames.2 hstate⟩
    subst hstate
    obtain ⟨other, hother, hname⟩ := hrest.next_declared
    rw [(DecisionResult.of_validateForDeclaration hvalid).1] at heq
    exact hnames.1 (List.mem_map.mpr ⟨other, hother, hname.trans heq.symm⟩)
  | pending retry => intro result hresult; cases hresult
  | stopped retry terminal hretry => cases hstate

/-! ### Growth -/

/-- What a history may go on with: any outcome but an answer that does not
belong to the attempt. -/
def Admits (reqs : List QuestionRequirements) (blocks : List DecisionBlock)
    (attempt : DecisionAttempt) (outcome : DecisionAttemptOutcome) : Prop :=
  ∀ answer, outcome.answer? = some answer → answer.attempts = attempt.number ∧
    ∀ block ∈ blocks, block.name = attempt.decision →
      answer.validateForDeclaration block reqs = .ok ()

lemma nil_of (reqs : List QuestionRequirements) (blocks : List DecisionBlock) :
    ∃ state, History reqs blocks [] [] state := by
  cases blocks with
  | nil => exact ⟨none, .complete⟩
  | cons block rest => exact ⟨_, .pending false⟩

/-- **A history goes on with any admitted outcome of its next attempt.** -/
lemma snoc {outcome : DecisionAttemptOutcome}
    (h : History reqs blocks rows results (some (.next attempt unfinished)))
    (hadmits : Admits reqs blocks attempt outcome) :
    ∃ results' state', History reqs blocks (rows ++ [⟨attempt, outcome⟩]) results'
      state' := by
  generalize hstate : some (DecisionProgressState.next attempt unfinished) = state at h
  induction h with
  | complete => cases hstate
  | @answered block rest rows results state retry answer hvalid hattempts hrest ih =>
    obtain ⟨results', state', h⟩ := ih
      (fun a ha => ⟨(hadmits a ha).1, fun b hb => (hadmits a ha).2 b (List.mem_cons_of_mem _ hb)⟩)
      hstate
    rw [List.append_assoc]
    exact ⟨_, _, .answered retry answer hvalid hattempts h⟩
  | @pending block rest retry =>
    cases hstate
    rw [← decisionRows_some]
    have hstop : ∀ terminal : DecisionProgressTerminal,
        (terminal = .attemptsExhausted → retry = true) → ∃ results' state',
          History reqs (block :: rest)
            (decisionRows block.name retry (some terminal.outcome)) results' state' :=
      fun terminal hretry => ⟨_, _, .stopped retry terminal hretry⟩
    cases outcome with
    | dispatchIntent => exact hstop .unresolvedIntent fun h => by cases h
    | unknown => exact hstop .unknown fun h => by cases h
    | permanent => exact hstop .permanent fun h => by cases h
    | safeTransient =>
      -- the first safe failure is retried, the second one is final
      cases retry with
      | true => exact hstop .attemptsExhausted fun _ => rfl
      | false => exact ⟨_, _, .pending true⟩
    | answer answer =>
      obtain ⟨hattempts, hvalid⟩ := hadmits answer rfl
      obtain ⟨state', h⟩ := nil_of reqs rest
      have h := History.answered retry answer (hvalid block List.mem_cons_self rfl) hattempts h
      rw [List.append_nil] at h
      exact ⟨_, _, h⟩
  | stopped retry terminal hretry => cases hstate

/-- **A history with rows comes from the history without its last row.** -/
lemma of_ne_nil (h : History reqs blocks rows results state) (hrows : rows ≠ []) :
    ∃ before attempt unfinished outcome results',
      rows = before ++ [⟨attempt, outcome⟩] ∧
      History reqs blocks before results' (some (.next attempt unfinished)) ∧
      results' ++ outcome.answer?.toList = results ∧
      (∀ answer, outcome.answer? = some answer → answer.attempts = attempt.number ∧
        ∃ block ∈ blocks, block.name = attempt.decision ∧
          answer.validateForDeclaration block reqs = .ok ()) := by
  induction h with
  | complete => exact absurd rfl hrows
  | @answered block rest rows results state retry answer hvalid hattempts hrest ih =>
    by_cases hempty : rows = []
    · subst hempty
      have hress : results = [] := hrest.savedAnswers_eq.symm
      subst hress
      rw [List.append_nil, decisionRows_some]
      refine ⟨_, _, _, _, _, rfl, .pending retry, rfl, ?_⟩
      intro a ha
      cases ha
      exact ⟨hattempts, block, List.mem_cons_self, rfl, hvalid⟩
    · obtain ⟨before, attempt, unfinished, outcome, results', hrows, h, hress, hanswer⟩ :=
        ih hempty
      refine ⟨_, attempt, unfinished, outcome, answer :: results', ?_,
        .answered retry answer hvalid hattempts h, ?_, ?_⟩
      · rw [hrows, List.append_assoc]
      · rw [List.cons_append, hress]
      · intro a ha
        obtain ⟨hnumber, b, hb, hname, hvalid⟩ := hanswer a ha
        exact ⟨hnumber, b, List.mem_cons_of_mem _ hb, hname, hvalid⟩
  | @pending block rest retry =>
    cases retry with
    | false => exact absurd rfl hrows
    | true =>
      refine ⟨[], _, _, .safeTransient, [], rfl, .pending false, rfl, ?_⟩
      intro a ha
      cases ha
  | @stopped block rest retry terminal hretry =>
    rw [decisionRows_some]
    have hnone : terminal.outcome.answer? = none := by cases terminal <;> rfl
    refine ⟨_, _, _, _, [], rfl, .pending retry, ?_, ?_⟩
    · rw [hnone]
      rfl
    · intro a ha
      rw [hnone] at ha
      cases ha

end History

/-! ### Rows in a map -/

structure ProgressRows.Holds (map : ProgressRows) (rows : List SavedDecisionAttempt) : Prop where
  nodup : (rows.map SavedDecisionAttempt.attempt).Nodup
  lookup : ∀ attempt outcome, map[attempt]? = some outcome ↔
    (⟨attempt, outcome⟩ : SavedDecisionAttempt) ∈ rows

namespace ProgressRows

variable {map : ProgressRows} {rows rows' : List SavedDecisionAttempt}

lemma holds_empty : Holds ∅ [] where
  nodup := .nil
  lookup attempt outcome := by simp

lemma Holds.perm (hperm : rows.Perm rows') (h : Holds map rows) : Holds map rows' where
  nodup := (hperm.map _).nodup h.nodup
  lookup attempt outcome := (h.lookup attempt outcome).trans hperm.mem_iff

lemma Holds.unique (h : Holds map rows) (h' : Holds map rows') : rows.Perm rows' := by
  have hrows : rows.Nodup := h.nodup.of_map
  have hrows' : rows'.Nodup := h'.nodup.of_map
  rw [List.perm_ext_iff_of_nodup hrows hrows']
  rintro ⟨attempt, outcome⟩
  exact (h.lookup attempt outcome).symm.trans (h'.lookup attempt outcome)

lemma Holds.lookup_eq_none (h : Holds map rows) {attempt : DecisionAttempt}
    (htry : ∀ row ∈ rows, row.attempt ≠ attempt) : map[attempt]? = none := by
  rcases hlookup : map[attempt]? with - | outcome
  · rfl
  · exact absurd rfl (htry _ ((h.lookup attempt outcome).mp hlookup))

lemma Holds.insert (h : Holds map rows) {row : SavedDecisionAttempt}
    (hnew : map[row.attempt]? = none) :
    Holds (map.insert row.attempt row.outcome) (rows ++ [row]) := by
  have hnot : ∀ r ∈ rows, r.attempt ≠ row.attempt := by
    rintro ⟨attempt, outcome⟩ hr heq
    have htry : attempt = row.attempt := heq
    rw [← htry, (h.lookup attempt outcome).mpr hr] at hnew
    cases hnew
  refine ⟨?_, fun attempt outcome => ?_⟩
  · rw [List.map_append, List.nodup_append]
    refine ⟨h.nodup, by simp, fun a ha b hb => ?_⟩
    obtain ⟨r, hr, rfl⟩ := List.mem_map.mp ha
    rw [List.mem_singleton.mp hb]
    exact hnot r hr
  · obtain ⟨attempt', outcome'⟩ := row
    rw [Std.ExtTreeMap.lookup_insert, List.mem_append, List.mem_singleton]
    by_cases heq : attempt' = attempt
    · subst heq
      rw [if_pos rfl]
      constructor
      · intro h'
        cases h'
        exact .inr rfl
      · rintro (h' | h')
        · exact (hnot _ h' rfl).elim
        · cases h'
          rfl
    · rw [if_neg heq, h.lookup]
      refine ⟨.inl, ?_⟩
      rintro (h' | h')
      · exact h'
      · cases h'
        exact absurd rfl heq

def without (map : ProgressRows) (decision : String) : ProgressRows :=
  (map.erase ⟨decision, 1⟩).erase ⟨decision, 2⟩

lemma lookup_without (map : ProgressRows) (decision : String) (attempt : DecisionAttempt) :
    (map.without decision)[attempt]? =
      if attempt = ⟨decision, 1⟩ ∨ attempt = ⟨decision, 2⟩ then none else map[attempt]? := by
  rw [without, Std.ExtTreeMap.lookup_erase, Std.ExtTreeMap.lookup_erase]
  by_cases h₁ : attempt = ⟨decision, 1⟩
  · simp [h₁]
  · by_cases h₂ : attempt = ⟨decision, 2⟩
    · simp [h₂]
    · rw [if_neg (Ne.symm h₂), if_neg (Ne.symm h₁), if_neg (by rintro (h | h) <;> contradiction)]

lemma without_eq_self {decision : String} (h₁ : map[(⟨decision, 1⟩ : DecisionAttempt)]? = none)
    (h₂ : map[(⟨decision, 2⟩ : DecisionAttempt)]? = none) : map.without decision = map := by
  apply Std.ExtTreeMap.ext_getElem?
  intro attempt
  rw [lookup_without]
  split
  case isTrue h => rcases h with rfl | rfl <;> simp only [h₁, h₂]
  case isFalse => rfl

lemma lookup_second (map : ProgressRows) (decision : String) :
    (map.erase (⟨decision, 1⟩ : DecisionAttempt))[(⟨decision, 2⟩ : DecisionAttempt)]? =
      map[(⟨decision, 2⟩ : DecisionAttempt)]? := by
  rw [Std.ExtTreeMap.lookup_erase, if_neg]
  intro h
  cases h

section

variable {decision : String} {retry : Bool} {current : Option DecisionAttemptOutcome}

lemma Holds.of_without (h₁ : map[(⟨decision, 1⟩ : DecisionAttempt)]? = firstOutcome retry current)
    (h₂ : map[(⟨decision, 2⟩ : DecisionAttempt)]? = secondOutcome retry current)
    (h : Holds (map.without decision) rows) :
    Holds map (decisionRows decision retry current ++ rows) := by
  have hother : ∀ row ∈ rows, ¬(row.attempt = ⟨decision, 1⟩ ∨ row.attempt = ⟨decision, 2⟩) := by
    rintro ⟨attempt, outcome⟩ hrow htry
    have hlookup := (h.lookup attempt outcome).mpr hrow
    rw [lookup_without, if_pos htry] at hlookup
    cases hlookup
  refine ⟨?_, fun attempt outcome => ?_⟩
  · rw [List.map_append, List.nodup_append]
    refine ⟨nodup_decisionRows _ _ _, h.nodup, fun a ha b hb => ?_⟩
    obtain ⟨⟨attempt, outcome⟩, hrow, rfl⟩ := List.mem_map.mp ha
    obtain ⟨row, hrow', rfl⟩ := List.mem_map.mp hb
    intro heq
    refine hother row hrow' ?_
    rw [← heq]
    exact (mem_decisionRows.mp hrow).imp And.left And.left
  · rw [List.mem_append, mem_decisionRows, ← h.lookup, lookup_without]
    by_cases ha₁ : attempt = ⟨decision, 1⟩
    · subst ha₁
      simp [h₁]
    · by_cases ha₂ : attempt = ⟨decision, 2⟩
      · subst ha₂
        simp [h₂]
      · simp [ha₁, ha₂]

lemma Holds.without (hother : ∀ row ∈ rows, row.attempt.decision ≠ decision)
    (h : Holds map (decisionRows decision retry current ++ rows)) :
    map[(⟨decision, 1⟩ : DecisionAttempt)]? = firstOutcome retry current ∧
      map[(⟨decision, 2⟩ : DecisionAttempt)]? = secondOutcome retry current ∧
      Holds (map.without decision) rows := by
  have hnot : ∀ number outcome,
      (⟨⟨decision, number⟩, outcome⟩ : SavedDecisionAttempt) ∉ rows :=
    fun number outcome hrow => hother _ hrow rfl
  refine ⟨Option.ext fun outcome => ?_, Option.ext fun outcome => ?_, ?_, fun attempt outcome => ?_⟩
  · rw [h.lookup, List.mem_append, mem_decisionRows]
    simp [hnot]
  · rw [h.lookup, List.mem_append, mem_decisionRows]
    simp [hnot]
  · have hnodup := h.nodup
    rw [List.map_append, List.nodup_append] at hnodup
    exact hnodup.2.1
  · rw [lookup_without]
    split
    case isTrue htry =>
      refine iff_of_false (by simp) ?_
      rcases htry with rfl | rfl
      · exact hnot 1 outcome
      · exact hnot 2 outcome
    case isFalse htry =>
      rw [h.lookup, List.mem_append, mem_decisionRows]
      refine ⟨?_, .inr⟩
      rintro ((⟨heq, -⟩ | ⟨heq, -⟩) | hrow)
      · exact absurd (.inl heq) htry
      · exact absurd (.inr heq) htry
      · exact hrow

end

end ProgressRows

end History

end Antiburn
