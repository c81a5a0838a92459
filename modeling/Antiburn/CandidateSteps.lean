/-
What each transaction does to the candidates.

Every transaction except a claim makes the moves of `RowSteps` and adds fresh
rows.  A claim moves one pending candidate of an idle key.  A transaction that
carries a claim leaves a candidate that it does not hold, with one exception: an
acceptance that finds the request origin of the candidate changed.
-/
import Antiburn.CandidateMoves

namespace Antiburn

variable [Platform]

/-! ### Moves of the table -/

/-- A transaction made of steps of the rows and of fresh rows. -/
def CheckTables.Steps (before after : CheckTables) : Prop :=
  Table.Moves CandidateRow.candidateId RowSteps FreshRow before.candidates after.candidates

namespace CheckTables.Steps

variable {before middle after : CheckTables}

lemma refl (tables : CheckTables) : tables.Steps tables :=
  Table.Moves.refl RowSteps.refl tables.candidates

lemma trans (h : before.Steps middle) (h' : middle.Steps after) : before.Steps after :=
  Table.Moves.trans RowSteps.trans RowSteps.fresh h h'

lemma update {cond : CandidateRow → Bool} {set : CandidateRow → CandidateRow}
    (tables : CheckTables)
    (hset : ∀ row ∈ tables.candidates, cond row = true → RowSteps row (set row)) :
    tables.Steps (tables.update cond set) :=
  Table.Moves.update (fun _ _ h => h.identity) RowSteps.refl hset

lemma invalidate (tables : CheckTables) (cond : CandidateRow → Bool) :
    tables.Steps (tables.invalidate cond) := by
  refine update tables fun row _ h => ?_
  rw [Bool.and_eq_true] at h
  exact rowSteps_stale h.2

end CheckTables.Steps

structure CheckTables.SameStatus (before after : CheckTables) : Prop where
  activations : after.activations = before.activations
  watermarks : after.watermarks = before.watermarks
  currentStatus : after.currentStatus = before.currentStatus

namespace CheckTables.SameStatus

variable {before middle tables after : CheckTables}

lemma refl (tables : CheckTables) : tables.SameStatus tables := ⟨rfl, rfl, rfl⟩

lemma trans (h : before.SameStatus middle) (h' : middle.SameStatus after) :
    before.SameStatus after :=
  ⟨h'.activations.trans h.activations, h'.watermarks.trans h.watermarks,
    h'.currentStatus.trans h.currentStatus⟩

lemma update (tables : CheckTables) (cond : CandidateRow → Bool)
    (set : CandidateRow → CandidateRow) : tables.SameStatus (tables.update cond set) :=
  ⟨rfl, rfl, rfl⟩

lemma ite_saveCooldown {cond : Prop} [Decidable cond] (h : tables.SameStatus after)
    (key : BranchKey) (untilEpoch : Nat) :
    tables.SameStatus (if cond then after.saveCooldown key untilEpoch else after) := by
  split_ifs
  · exact ⟨h.activations, h.watermarks, h.currentStatus⟩
  · exact h

end CheckTables.SameStatus

/-- A transaction that moves candidates and writes no evidence. -/
structure CheckTables.Moved (before after : CheckTables) : Prop where
  steps : before.Steps after
  same : before.SameStatus after

namespace CheckTables.Moved

variable {before middle after : CheckTables}

lemma refl (tables : CheckTables) : tables.Moved tables := ⟨.refl tables, .refl tables⟩

lemma trans (h : before.Moved middle) (h' : middle.Moved after) : before.Moved after :=
  ⟨h.steps.trans h'.steps, h.same.trans h'.same⟩

lemma update {cond : CandidateRow → Bool} {set : CandidateRow → CandidateRow}
    (tables : CheckTables)
    (hset : ∀ row ∈ tables.candidates, cond row = true → RowSteps row (set row)) :
    tables.Moved (tables.update cond set) :=
  ⟨.update tables hset, .update tables cond set⟩

lemma ite_saveCooldown {cond : Prop} [Decidable cond] (h : before.Moved after)
    (key : BranchKey) (untilEpoch : Nat) :
    before.Moved (if cond then after.saveCooldown key untilEpoch else after) := by
  refine ⟨?_, h.same.ite_saveCooldown key untilEpoch⟩
  split_ifs
  · exact h.steps
  · exact h.steps

end CheckTables.Moved

variable {row : CandidateRow}

namespace StoreCheckStore

open CheckTables

variable {claim : BurnCheckCandidateClaim} {attempt : DecisionAttempt}

omit [Platform] in
lemma claimRecord_ok {store : StoreCheckStore} {claimed : ClaimedCandidate}
    (h : store.claimRecord claimed = .ok claim) :
    claim = ⟨claimed.id, store.owner, claimed.fence⟩ := by
  unfold claimRecord at h
  obtain ⟨_, _, h⟩ := Except.of_bind_ok h
  obtain ⟨fence, hfence, h⟩ := Except.of_bind_ok h
  cases h
  rw [integer_ok hfence]

/-! ### Writes of a holder -/

variable {store : StoreCheckStore} {evidence : EvidenceView} {claimed : ClaimedCandidate}
  {tables after : CheckTables} {outcome : ClaimOutcome}

lemma moved_releaseUnattemptedClaim
    (h : store.releaseUnattemptedClaim claimed tables = .ok (outcome, after)) :
    tables.Moved after := by
  unfold releaseUnattemptedClaim at h
  obtain ⟨claim, hclaim, h⟩ := Except.of_bind_ok h
  obtain ⟨_, _, h⟩ := Except.of_bind_ok h
  obtain ⟨nextFence, hfence, h⟩ := Except.of_bind_ok h
  have hnext : claim.fence ≤ nextFence := by
    rw [claimRecord_ok hclaim, integer_ok hfence]
    exact Nat.le_succ _
  split at h
  · cases h
    exact .refl tables
  · cases h
    exact .update tables fun row _ hrow => rowSteps_released hrow hnext

lemma moved_savePreparation {preparation : PreparationRecord}
    (h : store.savePreparation evidence claimed preparation tables = .ok (outcome, after)) :
    tables.Moved after := by
  unfold savePreparation at h
  obtain ⟨_, _, h⟩ := Except.of_bind_ok h
  obtain ⟨_, _, h⟩ := Except.of_bind_ok h
  split at h
  · cases h
  · obtain ⟨_, _, h⟩ := Except.of_bind_ok h
    obtain ⟨claim, _, h⟩ := Except.of_bind_ok h
    obtain ⟨_, _, h⟩ := Except.of_bind_ok h
    split at h
    · cases h
      exact .refl tables
    · split at h
      · obtain ⟨_, _, h⟩ := Except.of_bind_ok h
        cases h
        exact .refl tables
      · obtain ⟨_, _, h⟩ := Except.of_bind_ok h
        cases h
        exact .update tables fun row _ _ =>
          .of_same_state rfl rfl rfl (Nat.le_refl _) rfl rfl rfl

lemma moved_dispatch {nowMs cooldownNanos : Nat}
    (h : store.dispatch evidence claimed nowMs cooldownNanos attempt tables = .ok (outcome, after)) :
    tables.Moved after := by
  unfold dispatch at h
  obtain ⟨_, _, h⟩ := Except.of_bind_ok h
  obtain ⟨claim, _, h⟩ := Except.of_bind_ok h
  obtain ⟨_, _, h⟩ := Except.of_bind_ok h
  split at h
  · cases h
    exact .refl tables
  split at h
  · -- the claim or the source changed
    cases h
    refine .update tables fun row _ hrow => ?_
    rw [Bool.and_eq_true] at hrow
    exact rowSteps_stale (CandidateState.unfinished_of_busy hrow.2)
  split at h
  · cases h
  · next row _ =>
    obtain ⟨_, _, h⟩ := Except.of_bind_ok h
    obtain ⟨validated, _, h⟩ := Except.of_bind_ok h
    obtain ⟨_, _, h⟩ := Except.of_bind_ok h
    obtain ⟨_, _, h⟩ := Except.of_bind_ok h
    split at h
    · cases h
      exact .refl tables
    obtain ⟨_, _, h⟩ := Except.of_bind_ok h
    have hupdate : ∀ started, tables.Moved
        (tables.update (dispatches claim tables) (dispatchedRow attempt started)) := by
      refine fun started => .update tables fun row _ hrow => ?_
      simp only [dispatches, Bool.and_eq_true, beq_iff_eq] at hrow
      exact rowSteps_dispatchedRow attempt started hrow.1.2
    cases h
    exact (hupdate _).ite_saveCooldown _ _

lemma moved_settleFailure {failure : AttemptFailure}
    {diagnostic : EvaluationDiagnostic}
    (h : store.settleFailure evidence claimed attempt failure diagnostic tables =
      .ok (outcome, after)) : tables.Moved after := by
  unfold settleFailure at h
  obtain ⟨_, _, h⟩ := Except.of_bind_ok h
  obtain ⟨_, _, h⟩ := Except.of_bind_ok h
  obtain ⟨claim, _, h⟩ := Except.of_bind_ok h
  obtain ⟨_, _, h⟩ := Except.of_bind_ok h
  have hsett : tables.Moved (tables.update (settles claim attempt)
      (failedAttempt attempt failure diagnostic)) :=
    .update tables fun row _ _ => rowSteps_failedAttempt attempt failure diagnostic row
  dsimp only at h
  split at h
  · cases h
    exact hsett
  · cases h
    exact hsett.trans (.update _ fun row _ _ => rowSteps_revokeHeld claim row)

lemma busy_of_claimIsCurrent
    {act : RegisteredActivation}
    (h : tables.claimIsCurrent store evidence claim act = true) :
    ∃ row ∈ tables.candidates, row.heldBy claim = true ∧ row.state.busy = true := by
  unfold CheckTables.claimIsCurrent at h
  simp only [Bool.and_eq_true, List.any_eq_true] at h
  obtain ⟨⟨⟨⟨row, hmem, hrow⟩, _⟩, _⟩, _⟩ := h
  exact ⟨row, hmem, hrow.1.1.1.1.1.1.1, hrow.1.1.2⟩

lemma candidateId_of_heldBy
    (h : row.heldBy claim = true) : row.candidateId = claim.candidateId := by
  simp only [CandidateRow.heldBy, Bool.and_eq_true, beq_iff_eq] at h
  exact h.1.1

lemma steps_saveDecisionAnswer (hnodup : (tables.candidates.map CandidateRow.candidateId).Nodup)
    {evaluated : DecisionResult}
    (h : store.saveDecisionAnswer evidence claimed attempt evaluated tables =
      .ok (outcome, after)) : tables.Steps after := by
  unfold saveDecisionAnswer at h
  obtain ⟨_, _, h⟩ := Except.of_bind_ok h
  obtain ⟨_, _, h⟩ := Except.of_bind_ok h
  obtain ⟨_, _, h⟩ := Except.of_bind_ok h
  obtain ⟨_, _, h⟩ := Except.of_bind_ok h
  obtain ⟨claim, _, h⟩ := Except.of_bind_ok h
  obtain ⟨_, _, h⟩ := Except.of_bind_ok h
  obtain ⟨complete, _, h⟩ := Except.of_bind_ok h
  have hsett : tables.Steps (tables.update (settles claim attempt) fun row =>
      { row with attempts := settleIntent attempt (.answer evaluated) row.attempts }) :=
    .update tables fun row _ _ => .of_same_state rfl rfl rfl (Nat.le_refl _) rfl
      (map_attempt_settleIntent attempt (.answer evaluated) row.attempts) rfl
  generalize (tables.update (settles claim attempt) fun row =>
      { row with attempts := settleIntent attempt (.answer evaluated) row.attempts }) = settled
    at h hsett
  have hnodup' := hsett.nodup hnodup
  generalize hcur : ((store.activations claimed.candidate.activation).any fun act =>
      settled.claimIsCurrent store evidence claim act) = current at h
  have hansd : settled.Steps (settled.update (·.heldBy claim)
      (answeredAttempt current complete)) := by
    refine .update settled fun row hmem hrow => rowSteps_answeredAttempt complete fun htrue => ?_
    rw [htrue, Option.any_eq_true] at hcur
    obtain ⟨act, _, hclaim⟩ := hcur
    obtain ⟨held, hmem', hheld, hbusy⟩ := busy_of_claimIsCurrent hclaim
    have hsame : row = held := Table.eq_of_key hnodup' hmem hmem'
      ((candidateId_of_heldBy hrow).trans (candidateId_of_heldBy hheld).symm)
    rw [hsame]
    exact hbusy
  split at h
  · cases h
    exact hsett.trans hansd
  · cases h
    exact (hsett.trans hansd).trans
      (.update _ fun row _ _ => rowSteps_recordRevokedAnswer row)

lemma moved_startLocal {nowMs cooldownNanos : Nat} {preparation : LocalPreparation}
    (h : store.startLocal evidence claimed nowMs cooldownNanos preparation tables =
      .ok (outcome, after)) : tables.Moved after := by
  unfold startLocal at h
  obtain ⟨claim, _, h⟩ := Except.of_bind_ok h
  split at h
  · cases h
    exact .refl tables
  obtain ⟨_, _, h⟩ := Except.of_bind_ok h
  split at h
  · cases h
    exact .refl tables
  split at h
  · cases h
    exact .refl tables
  split at h
  · cases h
    exact .refl tables
  obtain ⟨_, _, h⟩ := Except.of_bind_ok h
  obtain ⟨_, _, h⟩ := Except.of_bind_ok h
  obtain ⟨_, _, h⟩ := Except.of_bind_ok h
  obtain ⟨_, _, h⟩ := Except.of_bind_ok h
  obtain ⟨_, _, h⟩ := Except.of_bind_ok h
  split at h
  · obtain ⟨_, _, h⟩ := Except.of_bind_ok h
    cases h
    exact .refl tables
  obtain ⟨_, _, h⟩ := Except.of_bind_ok h
  obtain ⟨_, _, h⟩ := Except.of_bind_ok h
  have hupdate : tables.Moved (tables.update
      (fun row => row.heldBy claim && row.state == .claimed) fun row =>
        { row with
          state := .answered
          preparation := some (.localWork preparation)
          answer := some .localWork }) := by
    refine .update tables fun row _ hrow => ?_
    simp only [Bool.and_eq_true, beq_iff_eq] at hrow
    exact rowSteps_answered hrow.2
  cases h
  exact hupdate.ite_saveCooldown _ _

lemma steps_terminalWithDiagnostic
    (hnodup : (tables.candidates.map CandidateRow.candidateId).Nodup) {detail : String}
    {notAssessed : Bool} {preparation : Option PreparationRecord}
    {diagnostic : Option EvaluationDiagnostic}
    (h : store.terminalWithDiagnostic evidence claimed detail notAssessed preparation diagnostic
      tables = .ok (outcome, after)) : tables.Steps after := by
  unfold terminalWithDiagnostic at h
  obtain ⟨claim, _, h⟩ := Except.of_bind_ok h
  obtain ⟨_, _, h⟩ := Except.of_bind_ok h
  split at h
  · cases h
    exact .refl tables
  · next saved hsaved =>
    obtain ⟨_, hensure, h⟩ := Except.of_bind_ok h
    have hunset := ensure_ok hensure
    cases h
    have hheld : saved.heldBy claim = true := by
      have hfound := List.find?_some hsaved
      exact hfound
    refine .update tables fun row hmem hrow => ?_
    have hsame : row = saved := Table.eq_of_key hnodup hmem (List.mem_of_find?_eq_some hsaved)
      ((candidateId_of_heldBy hrow).trans (candidateId_of_heldBy hheld).symm)
    subst hsame
    apply rowSteps_settledRow
    by_cases hrevoked : row.state.revoked = true
    · rw [if_pos hrevoked]
      exact .inl rfl
    · rw [if_neg hrevoked]
      rw [Bool.or_eq_true] at hunset
      refine .inr ⟨CandidateState.unfinished_of_busy (hunset.resolve_left hrevoked), ?_⟩
      split_ifs <;> rfl

end StoreCheckStore

/-! ### Acceptance, overflow and cancellation -/

open StoreCheckStore

variable {store : StoreCheckStore} {evidence : EvidenceView} {tables after : CheckTables}

lemma steps_answeredStale (id : CandidateId) (tables : CheckTables) :
    tables.Steps (tables.update (answeredRow id) fun row => { row with state := .stale }) := by
  refine .update tables fun row _ hrow => rowSteps_stale ?_
  simp only [answeredRow, Bool.and_eq_true, beq_iff_eq] at hrow
  rw [hrow.2]
  rfl

variable {view : AcceptanceView} {accepted : BurnCheckAnswer} {id : CandidateId}
  {candidate : FrozenCandidate}

lemma steps_tryAcceptBurnCheckAnswer {claim : BurnCheckCandidateClaim}
    {outcome : AcceptanceOutcome}
    (h : tryAcceptBurnCheckAnswer view claim accepted tables = .ok (outcome, after)) :
    tables.Steps after := by
  unfold tryAcceptBurnCheckAnswer at h
  dsimp only at h
  split at h
  · cases h
    exact .refl tables
  split at h
  · -- the request origin changed
    cases h
    exact steps_answeredStale claim.candidateId tables
  split at h
  · cases h
    exact .refl tables
  split at h
  · -- not under the claim, or its activation was replaced
    cases h
    refine .update tables fun row _ hrow => rowSteps_stale ?_
    simp only [Bool.and_eq_true, beq_iff_eq] at hrow
    rw [hrow.2]
    rfl
  · next row _ =>
    obtain ⟨_, _, h⟩ := Except.of_bind_ok h
    split at h
    · cases h
      exact .refl tables
    split at h
    · cases h
      exact steps_answeredStale claim.candidateId tables
    split at h
    · cases h
      exact steps_answeredStale claim.candidateId tables
    obtain ⟨_, _, h⟩ := Except.of_bind_ok h
    have hupdate : tables.Steps (tables.update (answeredRow claim.candidateId)
        (acceptedRow accepted)) := by
      refine .update tables fun row _ hrow => ?_
      simp only [answeredRow, Bool.and_eq_true, beq_iff_eq] at hrow
      exact rowSteps_acceptedRow accepted hrow.2
    cases h
    cases accepted.statusWrite <;> exact hupdate

lemma steps_accept {gate : RegisteredActivation → Bool}
    {claimed : ClaimedCandidate} {outcome : AcceptanceOutcome}
    (h : store.accept gate view claimed accepted tables = .ok (outcome, after)) :
    tables.Steps after := by
  unfold StoreCheckStore.accept at h
  split at h
  · cases h
    exact .refl tables
  split at h
  · cases h
    exact .refl tables
  obtain ⟨_, _, h⟩ := Except.of_bind_ok h
  obtain ⟨claim, _, h⟩ := Except.of_bind_ok h
  exact steps_tryAcceptBurnCheckAnswer h

lemma state_of_pendingRow (h : pendingRow id row = true) : row.state = .pending := by
  simp only [pendingRow, Bool.and_eq_true, beq_iff_eq] at h
  exact h.2

lemma moved_overflowed (id : CandidateId) (safeReason : String) (tables : CheckTables) :
    tables.Moved (tables.update (pendingRow id) (overflowed safeReason)) :=
  .update tables fun _ _ hrow => rowSteps_overflowed safeReason (state_of_pendingRow hrow)

lemma moved_recordBurnCheckOverflow {safeReason : String} {saved : Bool}
    (h : recordBurnCheckOverflow id safeReason tables = .ok (saved, after)) :
    tables.Moved after := by
  unfold recordBurnCheckOverflow at h
  split at h
  · cases h
    exact .refl tables
  · obtain ⟨_, _, h⟩ := Except.of_bind_ok h
    cases h
    exact moved_overflowed id safeReason tables

lemma steps_cancelUnfinished (tables : CheckTables) :
    tables.Steps (cancelUnfinishedBurnCheckAssessments tables) :=
  .update tables fun _ _ hrow => rowSteps_connectionChanged hrow

/-! ### Recovery and lifecycle -/

lemma steps_recoverAbandoned (store : StoreCheckStore) (tables : CheckTables) :
    tables.Steps (store.recoverAbandoned tables) :=
  .update tables fun row _ _ => rowSteps_recoverRow store.owner row

lemma RecoveryCandidateRow.moved_recoverRow {row : RecoveryCandidateRow}
    {work : Option RecoveryWork}
    (h : row.recoverRow store evidence tables = .ok (work, after)) : tables.Moved after := by
  unfold RecoveryCandidateRow.recoverRow at h
  split at h
  · cases h
    exact .refl tables
  next hstate =>
  have hunfin : row.state.unfinished = true := by
    revert hstate
    cases row.state <;> decide
  split at h
  · cases h
    exact .refl tables
  split at h
  · cases h
    exact .refl tables
  · cases h
  · -- the saved work is rejected
    cases h
    refine .update tables fun saved _ hrow => ?_
    simp only [Bool.and_eq_true, beq_iff_eq] at hrow
    have hsaved : saved.state.unfinished = true := by
      rw [hrow.1.2]
      exact hunfin
    split_ifs
    · exact rowSteps_rejected hsaved rfl
    · exact rowSteps_rejected hsaved rfl

lemma steps_persistLifecycle {definitionId : String} {transition : LifecycleTransition}
    {act : Option ActivationId}
    (h : store.persistLifecycle definitionId transition act tables = .ok after) :
    tables.Steps after := by
  unfold persistLifecycle at h
  obtain ⟨record, _, h⟩ := Except.of_bind_ok h
  cases h
  cases record with
  | none => exact .refl tables
  | some record =>
    show tables.Steps (tables.update _ _)
    refine .update tables fun row _ hrow => rowSteps_cancelled ?_
    rw [Bool.and_eq_true] at hrow
    exact hrow.2

/-! ### Pages -/

lemma moved_insert (hfresh : FreshRow row)
    (hnew : tables.candidate? row.candidateId = none) :
    tables.Moved { tables with candidates := Table.insert row tables.candidates } := by
  refine ⟨Table.Moves.insert RowSteps.refl hfresh fun other hmem hid => ?_, rfl, rfl, rfl⟩
  have hfound := List.find?_eq_none.mp hnew other hmem
  exact hfound (decide_eq_true hid)

lemma moved_settleInserted (store : StoreCheckStore) (current coalescePending : Bool)
    (row : CandidateRow) (tables : CheckTables) :
    tables.Moved (store.settleInserted current coalescePending row tables) := by
  unfold settleInserted
  have hsett : tables.Moved (if (!current) = true then
      tables.update (pendingRow row.candidateId) fun row => { row with state := .stale }
    else if coalescePending = true then
      tables.update (coalesced row) fun row => { row with state := .coalesced }
    else tables) := by
    split_ifs
    · refine .update tables fun row _ hrow => rowSteps_stale ?_
      rw [state_of_pendingRow hrow]
      rfl
    · refine .update tables fun row _ hrow => rowSteps_coalesced ?_
      simp only [coalesced, Bool.and_eq_true, beq_iff_eq] at hrow
      rw [hrow.1.1.1.2]
      rfl
    · exact .refl tables
  dsimp only
  split_ifs at hsett ⊢ <;>
    first
    | exact hsett.trans (moved_overflowed _ _ _)
    | exact hsett

lemma moved_insertCandidate {current : CandidateId → Bool} {coalescePending : Bool}
    (h : store.insertCandidate current coalescePending candidate tables = .ok after) :
    tables.Moved after := by
  unfold insertCandidate at h
  dsimp only at h
  split at h
  · cases h
    exact .refl tables
  next hnew =>
  obtain ⟨_, _, h⟩ := Except.of_bind_ok h
  cases h
  have hnone : tables.candidate? (store.newRow candidate).candidateId = none :=
    Option.not_isSome_iff_eq_none.mp hnew
  exact (moved_insert (freshRow_newRow store candidate) hnone).trans
    (moved_settleInserted store _ coalescePending _ _)

lemma moved_persistPage {page : PublicationPage}
    (h : store.persistPage page tables = .ok after) : tables.Moved after := by
  unfold persistPage at h
  obtain ⟨_, _, h⟩ := Except.of_bind_ok h
  obtain ⟨_, _, h⟩ := Except.of_bind_ok h
  obtain ⟨_, _, h⟩ := Except.of_bind_ok h
  -- each candidate of the page takes its own step
  have hcand := Except.foldlM_rel CheckTables.Moved.refl (fun _ _ _ h h' => h.trans h')
    (fun _ _ _ _ h => moved_insertCandidate h) h
  exact .trans ⟨.invalidate tables _, .update tables _ _⟩ hcand

lemma moved_initializeRecent {act : RegisteredActivation} {branch : BranchId}
    {candidate : Option FrozenCandidate}
    (h : store.initializeRecent act branch candidate tables = .ok after) :
    tables.Moved after := by
  unfold initializeRecent at h
  obtain ⟨_, _, h⟩ := Except.of_bind_ok h
  obtain ⟨attached, hattac, h⟩ := Except.of_bind_ok h
  have hattach : tables.Moved attached := by
    cases candidate with
    | none =>
      cases hattac
      exact .refl tables
    | some candidate =>
      unfold attachCandidate at hattac
      obtain ⟨_, hnew, hattac⟩ := Except.of_bind_ok hattac
      obtain ⟨_, _, hattac⟩ := Except.of_bind_ok hattac
      cases hattac
      exact moved_insert (freshRow_newRow store candidate) (Option.isNone_iff_eq_none.mp (ensure_ok hnew))
  cases h
  refine hattach.trans (.update attached fun row _ hrow => rowSteps_coalesced ?_)
  simp only [behindNewest, Bool.and_eq_true, beq_iff_eq] at hrow
  rw [hrow.1.1.2]
  rfl

/-! ### Claims -/

structure ClaimGranted (store : StoreCheckStore) (candidate : FrozenCandidate)
    (granted : ClaimedCandidate) (before after : CheckTables) : Prop where
  id : granted.id = candidate.fingerprint
  moved : ∃ row ∈ before.candidates, row.candidateId = granted.id ∧ row.state = .pending ∧
    row.key = store.claimKey candidate ∧ granted.fence = row.claimFence + 1
  idle : ∀ other ∈ before.candidates, other.key = store.claimKey candidate →
    other.state.busy = false
  after : after = before.update (pendingRow granted.id) fun row =>
    { row with
      state := .claimed
      claimOwner := some store.owner
      claimFence := granted.fence
      priorStatus := granted.priorStatus }

lemma claim_cases {nowMs : Nat} {bypass : Bool}
    {outcome : CandidateClaim} (hfrozen : ∀ row ∈ tables.candidates, row.FrozenKey)
    (h : store.claim evidence candidate nowMs bypass tables = .ok (outcome, after)) :
    (∃ granted, outcome = .claimed granted ∧ ClaimGranted store candidate granted tables after) ∨
    (∀ granted, outcome ≠ .claimed granted) ∧ tables.Steps after := by
  unfold StoreCheckStore.claim at h
  obtain ⟨_, _, h⟩ := Except.of_bind_ok h
  dsimp only at h
  split at h
  · cases h
    exact .inr ⟨(fun _ h => by cases h), .refl tables⟩
  · cases h
    exact .inr ⟨(fun _ h => by cases h), .refl tables⟩
  · next act row hact hclaimable =>
    split at h
    · cases h
      exact .inr ⟨(fun _ h => by cases h), .refl tables⟩
    next hpend =>
    split at h
    · -- the dependencies changed
      cases h
      refine .inr ⟨(fun _ h => by cases h), .update tables fun row _ hrow => rowSteps_stale ?_⟩
      rw [state_of_pendingRow hrow]
      rfl
    obtain ⟨_, hsame, h⟩ := Except.of_bind_ok h
    split at h
    · cases h
      exact .inr ⟨(fun _ h => by cases h), .refl tables⟩
    next hfree =>
    obtain ⟨_, _, h⟩ := Except.of_bind_ok h
    obtain ⟨_, _, h⟩ := Except.of_bind_ok h
    obtain ⟨fence, hfence, h⟩ := Except.of_bind_ok h
    cases h
    obtain ⟨hmem, hid⟩ : row ∈ tables.candidates ∧ row.candidateId = candidate.fingerprint ∧
        row.key.activationScope = store.scope ∧ tables.generationActive row = true := by
      have hfound := List.find?_some hclaimable
      simp only [Bool.and_eq_true, beq_iff_eq] at hfound
      exact ⟨List.mem_of_find?_eq_some hclaimable, hfound.1.1, hfound.1.2, hfound.2⟩
    obtain ⟨hid, hscope, _⟩ := hid
    have hstate : row.state = .pending := by
      simpa using hpend
    -- the frozen candidate is the one claimed, so the row has the key of the claim
    have hkey : row.key = store.claimKey candidate := by
      obtain ⟨frozen, hmemFrozen, hfrozenSame⟩ := (Option.any_eq_true _ _).mp (ensure_ok hsame)
      have hkeys := FrozenCandidate.key_of_same hfrozenSame
      obtain ⟨hcheck, hgen, hbranch⟩ := hfrozen row hmem frozen hmemFrozen
      have hact : frozen.activation = candidate.activation := congrArg (·.activation) hkeys
      have hbranch' : frozen.branch = candidate.branch := congrArg (·.branch) hkeys
      show (⟨row.key.checkId, row.key.activationScope, row.key.generation, row.key.branch⟩ :
        BranchKey) = store.claimKey candidate
      rw [← hcheck, ← hgen, ← hbranch, hscope, hact, hbranch']
      rfl
    refine .inl ⟨_, rfl, ⟨rfl, ⟨row, hmem, hid, hstate, hkey, integer_ok hfence⟩, ?_, rfl⟩⟩
    intro other hother hotherKey
    rw [Bool.or_eq_true, not_or] at hfree
    have hnone := hfree.1
    rw [List.any_eq_true, not_exists] at hnone
    have hnot := hnone other
    rw [hotherKey] at hnot
    simpa [hother] using hnot

end Antiburn
