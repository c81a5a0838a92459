/-
What a transaction does to one candidate.

`RowMoves` is all that any transaction does to a row: the identity stays, the
fence does not decrease, a settled candidate keeps its state and its attempts, and
the history keeps agreeing with the state.  `RowSteps` adds that the candidate does
not become busy, which holds of every transaction except a claim.  The theorems of
this file say that the transactions are made of such moves.
-/
import Antiburn.CandidateStore

namespace Antiburn

variable [Platform]

/-! ### Rows -/

/-- At most one history entry, and it says how the candidate ended. -/
structure CandidateRow.HistoryAgrees (row : CandidateRow) : Prop where
  once : row.history.length ≤ 1
  agrees : ∀ entry ∈ row.history, row.state.outcome? = some entry.outcome

def CandidateRow.FrozenKey (row : CandidateRow) : Prop :=
  ∀ frozen ∈ row.frozenInput, frozen.activation.definitionId = row.key.checkId ∧
    frozen.activation.generation = row.key.generation ∧ frozen.branch = row.key.branch

structure RowMoves (before after : CandidateRow) : Prop where
  identity : after.candidateId = before.candidateId
  key : after.key = before.key
  fence : before.claimFence ≤ after.claimFence
  settled : before.state.unfinished = false → after.state = before.state ∧
    after.attempts.map SavedDecisionAttempt.attempt =
      before.attempts.map SavedDecisionAttempt.attempt
  history : before.HistoryAgrees → after.HistoryAgrees
  frozen : before.FrozenKey → after.FrozenKey

/-- What a transaction other than a claim may do to a candidate. -/
structure RowSteps (before after : CandidateRow) : Prop extends RowMoves before after where
  busy : after.state.busy = true → before.state.busy = true

structure FreshRow (row : CandidateRow) : Prop where
  idle : row.state.busy = false
  history : row.HistoryAgrees
  frozen : row.FrozenKey

namespace RowMoves

lemma refl (row : CandidateRow) : RowMoves row row :=
  ⟨rfl, rfl, Nat.le_refl _, fun _ => ⟨rfl, rfl⟩, id, id⟩

lemma trans (a b c : CandidateRow) (h : RowMoves a b) (h' : RowMoves b c) : RowMoves a c where
  identity := h'.identity.trans h.identity
  key := h'.key.trans h.key
  fence := Nat.le_trans h.fence h'.fence
  settled hsett := by
    obtain ⟨hstate, htries⟩ := h.settled hsett
    obtain ⟨hstate', htries'⟩ := h'.settled (by rw [hstate]; exact hsett)
    exact ⟨hstate'.trans hstate, htries'.trans htries⟩
  history := h'.history ∘ h.history
  frozen := h'.frozen ∘ h.frozen

end RowMoves

namespace RowSteps

lemma refl (row : CandidateRow) : RowSteps row row := ⟨.refl row, id⟩

lemma trans (a b c : CandidateRow) (h : RowSteps a b) (h' : RowSteps b c) : RowSteps a c :=
  ⟨.trans a b c h.toRowMoves h'.toRowMoves, h.busy ∘ h'.busy⟩

lemma fresh (a b : CandidateRow) (h : FreshRow a) (hstep : RowSteps a b) : FreshRow b where
  idle := by
    cases hbusy : b.state.busy with
    | false => rfl
    | true =>
      have hbefore := hstep.busy hbusy
      rw [h.idle] at hbefore
      cases hbefore
  history := hstep.history h.history
  frozen := hstep.frozen h.frozen

end RowSteps

variable {entry : AssessmentHistoryRow} {row : CandidateRow} {state : CandidateState}

lemma CandidateRow.HistoryAgrees.eq_nil (h : row.HistoryAgrees)
    (hunfin : row.state.unfinished = true) : row.history = [] := by
  apply List.eq_nil_iff_forall_not_mem.mpr
  intro entry hmem
  have hout := h.agrees entry hmem
  cases hstate : row.state <;> rw [hstate] at hout hunfin <;>
    first | cases hout | cases hunfin

lemma CandidateRow.HistoryAgrees.of_nil (h : row.history = []) :
    row.HistoryAgrees := by
  refine ⟨by rw [h]; exact Nat.zero_le 1, fun entry hmem => ?_⟩
  rw [h] at hmem
  cases hmem

lemma CandidateRow.HistoryAgrees.of_singleton
    (h : row.history = [entry]) (hout : row.state.outcome? = some entry.outcome) :
    row.HistoryAgrees := by
  refine ⟨by rw [h]; exact Nat.le_refl 1, fun other hmem => ?_⟩
  rw [h] at hmem
  rw [List.mem_singleton.mp hmem]
  exact hout

/-- **How an unfinished candidate may be written.** -/
lemma RowMoves.of_unfinished {before after : CandidateRow}
    (hunfin : before.state.unfinished = true) (hid : after.candidateId = before.candidateId)
    (hkey : after.key = before.key) (hfence : before.claimFence ≤ after.claimFence)
    (hfrozen : after.frozenInput = before.frozenInput ∨ after.frozenInput = none)
    (hhist : before.history = [] → after.HistoryAgrees) : RowMoves before after where
  identity := hid
  key := hkey
  fence := hfence
  settled hsett := by
    rw [hunfin] at hsett
    cases hsett
  history h := hhist (h.eq_nil hunfin)
  frozen h frozen hmem := by
    rw [hkey]
    rcases hfrozen with heq | heq
    · exact h frozen (heq ▸ hmem)
    · rw [heq] at hmem
      cases hmem

/-- **How a write that keeps the state may go.** -/
lemma RowSteps.of_same_state {before after : CandidateRow} (hstate : after.state = before.state)
    (hid : after.candidateId = before.candidateId) (hkey : after.key = before.key)
    (hfence : before.claimFence ≤ after.claimFence)
    (hfrozen : after.frozenInput = before.frozenInput)
    (htries : after.attempts.map SavedDecisionAttempt.attempt =
      before.attempts.map SavedDecisionAttempt.attempt)
    (hhist : after.history.map AssessmentHistoryRow.outcome =
      before.history.map AssessmentHistoryRow.outcome) : RowSteps before after where
  identity := hid
  key := hkey
  fence := hfence
  settled _ := ⟨hstate, htries⟩
  history h := by
    refine ⟨?_, fun entry hmem => ?_⟩
    · have hlen := congrArg List.length hhist
      rw [List.length_map, List.length_map] at hlen
      rw [hlen]
      exact h.once
    · have hout : entry.outcome ∈ before.history.map AssessmentHistoryRow.outcome :=
        hhist ▸ List.mem_map_of_mem hmem
      obtain ⟨entry', hmem', heq⟩ := List.mem_map.mp hout
      rw [hstate, ← heq]
      exact h.agrees entry' hmem'
  frozen h frozen hmem := by
    rw [hkey]
    exact h frozen (hfrozen ▸ hmem)
  busy hbusy := hstate ▸ hbusy

lemma map_attempt_settleIntent (attempt : DecisionAttempt) (outcome : DecisionAttemptOutcome)
    (rows : List SavedDecisionAttempt) :
    (StoreCheckStore.settleIntent attempt outcome rows).map SavedDecisionAttempt.attempt =
      rows.map SavedDecisionAttempt.attempt := by
  unfold StoreCheckStore.settleIntent Table.update
  rw [List.map_map]
  refine List.map_congr_left fun saved _ => ?_
  show SavedDecisionAttempt.attempt (if _ then _ else _) = _
  split_ifs <;> rfl

lemma map_attempt_settleUnknown (rows : List SavedDecisionAttempt) :
    (rows.map settleUnknown).map SavedDecisionAttempt.attempt =
      rows.map SavedDecisionAttempt.attempt := by
  rw [List.map_map]
  refine List.map_congr_left fun saved _ => ?_
  show (settleUnknown saved).attempt = saved.attempt
  unfold settleUnknown
  split <;> rfl

/-! ### Writes of one row -/

section

variable (h : row.state.unfinished = true)
include h

lemma rowSteps_stale :
    RowSteps row { row with state := .stale } where
  toRowMoves := .of_unfinished h rfl rfl (Nat.le_refl _) (.inl rfl) fun hnil => .of_nil hnil
  busy hbusy := by cases hbusy

lemma rowSteps_cancelled :
    RowSteps row { row with state := .cancelled } where
  toRowMoves := .of_unfinished h rfl rfl (Nat.le_refl _) (.inl rfl) fun hnil => .of_nil hnil
  busy hbusy := by cases hbusy

lemma rowSteps_coalesced :
    RowSteps row { row with state := .coalesced } where
  toRowMoves := .of_unfinished h rfl rfl (Nat.le_refl _) (.inl rfl) fun hnil => .of_nil hnil
  busy hbusy := by cases hbusy

end

lemma CandidateRow.recordHistory_agrees
    (h : row.HistoryAgrees) (hout : row.state.outcome? = some entry.outcome) :
    (row.recordHistory entry).HistoryAgrees := by
  unfold CandidateRow.recordHistory
  split_ifs
  · exact .of_singleton rfl hout
  · exact h

lemma rowSteps_recordHistory
    (hout : row.state.outcome? = some entry.outcome) :
    RowSteps row (row.recordHistory entry) := by
  have hsame : (row.recordHistory entry).candidateId = row.candidateId ∧
      (row.recordHistory entry).key = row.key ∧
      (row.recordHistory entry).claimFence = row.claimFence ∧
      (row.recordHistory entry).state = row.state ∧
      (row.recordHistory entry).attempts = row.attempts ∧
      (row.recordHistory entry).frozenInput = row.frozenInput := by
    unfold CandidateRow.recordHistory
    split_ifs <;> exact ⟨rfl, rfl, rfl, rfl, rfl, rfl⟩
  obtain ⟨hid, hkey, hfence, hstate, htries, hfrozen⟩ := hsame
  exact {
    identity := hid
    key := hkey
    fence := Nat.le_of_eq hfence.symm
    settled := fun _ => ⟨hstate, by rw [htries]⟩
    history := fun h => CandidateRow.recordHistory_agrees h hout
    frozen := fun h frozen hmem => by
      rw [hkey]
      exact h frozen (hfrozen ▸ hmem)
    busy := fun hbusy => hstate ▸ hbusy }

lemma rowSteps_recordRevoked (row : CandidateRow) : RowSteps row row.recordRevoked := by
  unfold CandidateRow.recordRevoked
  split
  · exact rowSteps_recordHistory (by simp only [CandidateRow.historyAt, *]; rfl)
  · exact rowSteps_recordHistory (by simp only [CandidateRow.historyAt, *]; rfl)
  · exact .refl row

lemma rowSteps_recordRevokedAnswer (row : CandidateRow) :
    RowSteps row row.recordRevokedAnswer := by
  unfold CandidateRow.recordRevokedAnswer
  split_ifs
  · exact rowSteps_recordRevoked row
  · refine .of_same_state rfl rfl rfl (Nat.le_refl _) rfl rfl ?_
    rw [List.map_map]
    rfl
  · exact .refl row

open StoreCheckStore

lemma rowSteps_released {claim : BurnCheckCandidateClaim} {tables : CheckTables}
    {coalesces : Bool} {nextFence : Nat} (h : releases claim row = true)
    (hfence : claim.fence ≤ nextFence) : RowSteps row (released tables coalesces nextFence row) := by
  unfold releases at h
  simp only [Bool.and_eq_true, beq_iff_eq] at h
  obtain ⟨⟨hheld, hstate⟩, _⟩ := h
  simp only [CandidateRow.heldBy, Bool.and_eq_true, beq_iff_eq] at hheld
  obtain ⟨_, hclaim⟩ := hheld
  have hunfin : row.state.unfinished = true := by rw [hstate]; rfl
  unfold released
  refine ⟨.of_unfinished hunfin rfl rfl (by rw [hclaim]; exact hfence) (.inl rfl)
    fun hnil => .of_nil hnil, fun _ => ?_⟩
  rw [hstate]
  rfl

lemma rowMoves_claimed {owner : String} {fence : Nat}
    {prior : Option StatusResult} (h : row.state = .pending) (hfence : row.claimFence ≤ fence) :
    RowMoves row { row with
      state := .claimed, claimOwner := some owner, claimFence := fence, priorStatus := prior } :=
  .of_unfinished (by rw [h]; rfl) rfl rfl hfence (.inl rfl) fun hnil => .of_nil hnil

lemma rowSteps_dispatchedRow (attempt : DecisionAttempt)
    (started : Option Nat) (h : row.state = .claimed) :
    RowSteps row (dispatchedRow attempt started row) :=
  ⟨.of_unfinished (by rw [h]; rfl) rfl rfl (Nat.le_refl _) (.inl rfl) fun hnil => .of_nil hnil,
    fun _ => by rw [h]; rfl⟩

lemma rowSteps_failedAttempt (attempt : DecisionAttempt) (outcome : AttemptFailure)
    (diagnostic : EvaluationDiagnostic) (row : CandidateRow) :
    RowSteps row (failedAttempt attempt outcome diagnostic row) := by
  unfold failedAttempt
  by_cases hretry : (outcome == .safeTransient && attempt.number == 1 &&
      row.state == .dispatching) = true
  · -- the state goes back from `dispatching` to `claimed`
    rw [if_pos hretry]
    simp only [Bool.and_eq_true, beq_iff_eq] at hretry
    have hunfin : row.state.unfinished = true := by rw [hretry.2]; rfl
    exact ⟨.of_unfinished hunfin rfl rfl (Nat.le_refl _) (.inl rfl) fun hnil => .of_nil hnil,
      fun _ => by rw [hretry.2]; rfl⟩
  · rw [if_neg hretry]
    exact .of_same_state rfl rfl rfl (Nat.le_refl _) rfl
      (map_attempt_settleIntent attempt outcome.outcome row.attempts) rfl

lemma rowSteps_revokeHeld (claim : BurnCheckCandidateClaim) (row : CandidateRow) :
    RowSteps row (revokeHeld claim row) := by
  unfold revokeHeld
  split_ifs with h
  · simp only [Bool.and_eq_true] at h
    exact .trans _ _ _ (rowSteps_stale (CandidateState.unfinished_of_busy h.2))
      (rowSteps_recordRevoked _)
  · exact rowSteps_recordRevoked row

lemma rowSteps_answeredAttempt {current : Bool}
    (complete : Option EvaluatedAssessment) (h : current = true → row.state.busy = true) :
    RowSteps row (answeredAttempt current complete row) := by
  unfold answeredAttempt
  by_cases hbusy : row.state.busy = true
  · refine ⟨.of_unfinished (CandidateState.unfinished_of_busy hbusy) rfl rfl (Nat.le_refl _)
      (.inl rfl) fun hnil => .of_nil hnil, fun _ => hbusy⟩
  · have hcur : current = false := Bool.eq_false_iff.mpr fun hcur => hbusy (h hcur)
    rw [hcur, if_neg Bool.false_ne_true, if_neg hbusy]
    exact .of_same_state rfl rfl rfl (Nat.le_refl _) rfl rfl rfl

lemma rowSteps_answered {preparation : Option PreparationRecord}
    {answer : Option EvaluatedAssessment} (h : row.state = .claimed) :
    RowSteps row { row with state := .answered, preparation, answer } :=
  ⟨.of_unfinished (by rw [h]; rfl) rfl rfl (Nat.le_refl _) (.inl rfl) fun hnil => .of_nil hnil,
    fun _ => by rw [h]; rfl⟩

lemma rowSteps_settledRow (detail : String)
    (preparation : Option PreparationRecord) (diagnostic : Option EvaluationDiagnostic)
    (h : state = row.state ∨ row.state.unfinished = true ∧ state.unfinished = false) :
    RowSteps row (settledRow state detail preparation diagnostic row) := by
  have hwrite : RowSteps row { row with
      state
      preparation := preparation.or row.preparation
      diagnostic := row.diagnostic.or diagnostic } := by
    rcases h with rfl | ⟨hunfin, hsett⟩
    · exact .of_same_state rfl rfl rfl (Nat.le_refl _) rfl rfl rfl
    · refine ⟨.of_unfinished hunfin rfl rfl (Nat.le_refl _) (.inl rfl) fun hnil => .of_nil hnil,
        fun hbusy => ?_⟩
      have hbusy' : state.unfinished = true := CandidateState.unfinished_of_busy hbusy
      rw [hsett] at hbusy'
      cases hbusy'
  unfold settledRow
  split
  · next outcome hout => exact .trans _ _ _ hwrite (rowSteps_recordHistory hout)
  · exact hwrite

lemma rowSteps_acceptedRow (accepted : BurnCheckAnswer)
    (h : row.state = .answered) : RowSteps row (acceptedRow accepted row) := by
  refine ⟨.of_unfinished (by rw [h]; rfl) rfl rfl (Nat.le_refl _) (.inl rfl) fun hnil => ?_,
    fun hbusy => by cases hbusy⟩
  unfold acceptedRow
  rw [hnil]
  exact .of_singleton rfl rfl

lemma rowSteps_overflowed (safeReason : String)
    (h : row.state = .pending) : RowSteps row (overflowed safeReason row) := by
  refine ⟨.of_unfinished (by rw [h]; rfl) rfl rfl (Nat.le_refl _) (.inr rfl) fun hnil => ?_,
    fun hbusy => by cases hbusy⟩
  unfold overflowed
  rw [hnil]
  exact .of_singleton rfl rfl

lemma rowSteps_ended
    {owner : Option String} {fence : Nat} {diagnostic : Option EvaluationDiagnostic}
    (h : row.state.unfinished = true) (hfence : row.claimFence ≤ fence)
    (hout : state.outcome? = some entry.outcome) :
    RowSteps row { row.recordHistory entry with
      state, claimOwner := owner, claimFence := fence, diagnostic } := by
  have hrecord : row.history = [] → row.recordHistory entry = { row with history := [entry] } := by
    intro hnil
    unfold CandidateRow.recordHistory
    rw [hnil]
    rfl
  have hother : (row.recordHistory entry).candidateId = row.candidateId ∧
      (row.recordHistory entry).key = row.key ∧
      (row.recordHistory entry).frozenInput = row.frozenInput := by
    unfold CandidateRow.recordHistory
    split_ifs <;> exact ⟨rfl, rfl, rfl⟩
  refine ⟨.of_unfinished h hother.1 hother.2.1 hfence (.inl hother.2.2) fun hnil => ?_,
    fun hbusy => ?_⟩
  · rw [hrecord hnil]
    exact .of_singleton rfl hout
  · exfalso
    revert hbusy hout
    cases state <;> rintro hout hbusy <;> first | cases hout | cases hbusy

lemma rowSteps_interruptedRow (row : CandidateRow) : RowSteps row (interruptedRow row) :=
  .of_same_state rfl rfl rfl (Nat.le_refl _) rfl (map_attempt_settleUnknown row.attempts) rfl

lemma claimFence_recordHistory (entry : AssessmentHistoryRow) (row : CandidateRow) :
    (row.recordHistory entry).claimFence = row.claimFence := by
  unfold CandidateRow.recordHistory
  split_ifs <;> rfl

lemma rowSteps_requeuedRow (owner : String) (row : CandidateRow) :
    RowSteps row (requeuedRow owner row) := by
  unfold requeuedRow
  split_ifs with haband hresumable hanswered
  · -- back to the queue, without an owner
    have hunfin : row.state.unfinished = true := by
      revert haband
      cases row.state <;> decide
    exact ⟨.of_unfinished hunfin rfl rfl (Nat.le_refl _) (.inl rfl) fun hnil => .of_nil hnil,
      fun hbusy => by cases hbusy⟩
  · -- its delivery is unknown or its attempts are exhausted
    have hunfin : row.state.unfinished = true := by
      revert haband
      cases row.state <;> decide
    exact rowSteps_ended hunfin (Nat.le_of_eq (claimFence_recordHistory _ row).symm) rfl
  · -- an answer is taken over
    exact .of_same_state rfl rfl rfl (Nat.le_succ _) rfl rfl rfl
  · exact .refl row

lemma rowSteps_recoverRow (owner : String) (row : CandidateRow) :
    RowSteps row (recoverRow owner row) :=
  .trans _ _ _ (rowSteps_interruptedRow row) (rowSteps_requeuedRow owner _)

lemma rowSteps_rejected {outcome : AssessmentOutcome}
    (h : row.state.unfinished = true) (hout : state.outcome? = some outcome) :
    RowSteps row (RecoveryCandidateRow.rejected state outcome row) :=
  rowSteps_ended h (Nat.le_succ _) hout

lemma rowSteps_connectionChanged (h : row.state.unfinished = true) :
    RowSteps row { row.recordHistory (row.historyAt .cancelled) with
      state := .cancelled, diagnostic := some CONNECTION_CHANGED } :=
  rowSteps_ended h (Nat.le_of_eq (claimFence_recordHistory _ row).symm) rfl

lemma freshRow_newRow (store : StoreCheckStore) (cand : FrozenCandidate) :
    FreshRow (store.newRow cand) where
  idle := rfl
  history := .of_nil rfl
  frozen frozen hmem := by
    cases Option.mem_some.mp hmem
    exact ⟨rfl, rfl, rfl⟩

end Antiburn
