/-
The durable candidate state machine.

`checkStore` runs any sequence of transactions, by any number of stores with any
claims.  `RunSafe` collects what a run keeps: one busy candidate for each key,
settled candidates that stay settled, writes that are fenced, fences that grow,
and a history that agrees.  Everything but the fencing holds in every run; the
fencing holds exactly in the runs where no acceptance revokes an answer that
somebody else holds.
-/
import Antiburn.CandidateFences
import Antiburn.Selector

namespace Antiburn

section CheckStore

variable [Platform]

/-! ### Transactions -/

inductive CheckStoreOp where
  | release (store : StoreCheckStore) (claimed : ClaimedCandidate)
  | savePreparation (store : StoreCheckStore) (evidence : EvidenceView)
      (claimed : ClaimedCandidate) (preparation : PreparationRecord)
  | claim (store : StoreCheckStore) (evidence : EvidenceView) (candidate : FrozenCandidate)
      (nowMs : Nat) (bypass : Bool)
  | dispatch (store : StoreCheckStore) (evidence : EvidenceView) (claimed : ClaimedCandidate)
      (nowMs cooldownNanos : Nat) (attempt : DecisionAttempt)
  | settleFailure (store : StoreCheckStore) (evidence : EvidenceView) (claimed : ClaimedCandidate)
      (attempt : DecisionAttempt) (failure : AttemptFailure) (diagnostic : EvaluationDiagnostic)
  | saveDecisionAnswer (store : StoreCheckStore) (evidence : EvidenceView)
      (claimed : ClaimedCandidate) (attempt : DecisionAttempt) (evaluated : DecisionResult)
  | startLocal (store : StoreCheckStore) (evidence : EvidenceView) (claimed : ClaimedCandidate)
      (nowMs cooldownNanos : Nat) (preparation : LocalPreparation)
  | terminal (store : StoreCheckStore) (evidence : EvidenceView) (claimed : ClaimedCandidate)
      (detail : String) (notAssessed : Bool) (preparation : Option PreparationRecord)
      (diagnostic : Option EvaluationDiagnostic)
  | accept (store : StoreCheckStore) (gate : RegisteredActivation → Bool) (view : AcceptanceView)
      (claimed : ClaimedCandidate) (accepted : BurnCheckAnswer)
  | overflow (id : CandidateId) (safeReason : String)
  | cancelUnfinished
  | recoverAbandoned (store : StoreCheckStore)
  | recoverRow (store : StoreCheckStore) (evidence : EvidenceView) (row : RecoveryCandidateRow)
  | lifecycle (store : StoreCheckStore) (definitionId : String) (transition : LifecycleTransition)
      (activation : Option ActivationId)
  | persistPage (store : StoreCheckStore) (page : StoreCheckStore.PublicationPage)
  | initializeRecent (store : StoreCheckStore) (activation : RegisteredActivation)
      (branch : BranchId) (candidate : Option FrozenCandidate)
  /-- Evidence that other parts of the store find changed. -/
  | invalidate (condition : CandidateRow → Bool)

namespace CheckStoreOp

def commit (tables : CheckTables) : CheckStoreOp → Except StoreError CheckTables
  | release store claimed => (store.releaseUnattemptedClaim claimed tables).map (·.2)
  | savePreparation store evidence claimed preparation =>
    (store.savePreparation evidence claimed preparation tables).map (·.2)
  | claim store evidence cand nowMs bypass =>
    (store.claim evidence cand nowMs bypass tables).map (·.2)
  | dispatch store evidence claimed nowMs cooldownNanos attempt =>
    (store.dispatch evidence claimed nowMs cooldownNanos attempt tables).map (·.2)
  | settleFailure store evidence claimed attempt failure diagnostic =>
    (store.settleFailure evidence claimed attempt failure diagnostic tables).map (·.2)
  | saveDecisionAnswer store evidence claimed attempt evaluated =>
    (store.saveDecisionAnswer evidence claimed attempt evaluated tables).map (·.2)
  | startLocal store evidence claimed nowMs cooldownNanos preparation =>
    (store.startLocal evidence claimed nowMs cooldownNanos preparation tables).map (·.2)
  | terminal store evidence claimed detail notAssessed preparation diagnostic =>
    (store.terminalWithDiagnostic evidence claimed detail notAssessed preparation diagnostic
      tables).map (·.2)
  | accept store gate view claimed accepted =>
    (store.accept gate view claimed accepted tables).map (·.2)
  | overflow id safeReason => (recordBurnCheckOverflow id safeReason tables).map (·.2)
  | cancelUnfinished => .ok (cancelUnfinishedBurnCheckAssessments tables)
  | recoverAbandoned store => .ok (store.recoverAbandoned tables)
  | recoverRow store evidence row => (row.recoverRow store evidence tables).map (·.2)
  | lifecycle store definitionId transition activation =>
    store.persistLifecycle definitionId transition activation tables
  | persistPage store page => store.persistPage page tables
  | initializeRecent store activation branch cand =>
    store.initializeRecent activation branch cand tables
  | invalidate condition => .ok (tables.invalidate condition)

/-- The tables behind a transaction.  One that fails commits nothing. -/
def after (op : CheckStoreOp) (tables : CheckTables) : CheckTables :=
  match op.commit tables with
  | .ok after => after
  | .error _ => tables

def granted (tables : CheckTables) : CheckStoreOp → Option (CandidateId × Nat)
  | claim store evidence cand nowMs bypass =>
    match store.claim evidence cand nowMs bypass tables with
    | .ok (.claimed granted, _) => some (granted.id, granted.fence)
    | _ => none
  | _ => none

lemma granted_of_error {op : CheckStoreOp} {tables : CheckTables} {error : StoreError}
    (h : op.commit tables = .error error) : op.granted tables = none := by
  cases op with
  | claim store evidence cand nowMs bypass =>
    cases hclaim : store.claim evidence cand nowMs bypass tables with
    | error error => simp only [granted, hclaim]
    | ok value =>
      simp only [commit, hclaim] at h
      cases h
  | _ => rfl

def claim? : CheckStoreOp → Option BurnCheckCandidateClaim
  | release store claimed | savePreparation store _ claimed _ | dispatch store _ claimed _ _ _
  | settleFailure store _ claimed _ _ _ | saveDecisionAnswer store _ claimed _ _
  | startLocal store _ claimed _ _ _ | terminal store _ claimed _ _ _ _
  | accept store _ _ claimed _ => some ⟨claimed.id, store.owner, claimed.fence⟩
  | _ => none

end CheckStoreOp

structure CheckStoreLabel where
  op : CheckStoreOp
  granted : Option (CandidateId × Nat)

def checkStore : Machine CheckTables CheckStoreLabel where
  step before label after := label.granted = label.op.granted before ∧ after = label.op.after before

/-! ### What is safe -/

/-- At most one candidate of a key is worked on. -/
def CheckTables.Exclusive (tables : CheckTables) : Prop :=
  ∀ key, (tables.candidates.countP fun row => row.key == key && row.state.busy) ≤ 1

/-- Settled candidates keep their state and their attempts, and no fence decreases. -/
def CheckTables.Settles (before after : CheckTables) : Prop :=
  ∀ row ∈ before.candidates, ∃ row' ∈ after.candidates, row'.candidateId = row.candidateId ∧
    row.claimFence ≤ row'.claimFence ∧
    (row.state.unfinished = false → row'.state = row.state ∧
      row'.attempts.map SavedDecisionAttempt.attempt = row.attempts.map SavedDecisionAttempt.attempt)

/-- A write under a claim that does not hold its candidate changes none of its rows. -/
def CheckStoreOp.Fenced (op : CheckStoreOp) (before after : CheckTables) : Prop :=
  ∀ claim ∈ op.claim?, ∀ row, before.candidate? claim.candidateId = some row →
    row.heldBy claim = false → after.candidate? claim.candidateId = some row

/-- An acceptance that reaches an answered candidate under a claim that does not
hold it, and finds another request origin than the current one. -/
def CheckStoreOp.RevokesForOthers (before : CheckTables) : CheckStoreOp → Prop
  | accept store gate view claimed accepted =>
    (∃ activation, ReachesTables store gate claimed accepted activation) ∧
      view.requestOriginCurrent claimed.id = false ∧
      ∃ row, before.candidate? claimed.id = some row ∧ row.state = .answered ∧
        row.heldBy ⟨claimed.id, store.owner, claimed.fence⟩ = false
  | _ => False

/-- What holds throughout a run from a fresh database. -/
structure RunSafe (labels : List CheckStoreLabel) : Prop where
  /-- One candidate of a key is claimed, dispatching or answered, at any time. -/
  exclusive : ∀ ls ls' s, labels = ls ++ ls' → checkStore.Run .empty ls s → s.Exclusive
  /-- A settled candidate stays as it is and fences do not decrease, over any stretch. -/
  settles : ∀ ls ls' ls'' s t, labels = ls ++ ls' ++ ls'' → checkStore.Run .empty ls s →
    checkStore.Run s ls' t → s.Settles t
  /-- No write under an outdated claim changes its candidate. -/
  fenced : ∀ ls label ls' s t, labels = ls ++ label :: ls' → checkStore.Run .empty ls s →
    checkStore.step s label t → label.op.Fenced s t
  /-- No two claims return one fence for a candidate. -/
  fences : (labels.filterMap CheckStoreLabel.granted).Nodup
  /-- A candidate has at most one history entry, which names its final state. -/
  history : ∀ ls ls' s, labels = ls ++ ls' → checkStore.Run .empty ls s →
    ∀ row ∈ s.candidates, row.HistoryAgrees

/-! ### Invariant -/

/-- What every transaction keeps. -/
structure CheckTables.Sound (tables : CheckTables) : Prop where
  nodup : (tables.candidates.map CandidateRow.candidateId).Nodup
  history : ∀ row ∈ tables.candidates, row.HistoryAgrees
  frozen : ∀ row ∈ tables.candidates, row.FrozenKey
  alone : ∀ a ∈ tables.candidates, ∀ b ∈ tables.candidates, a.state.busy = true →
    b.state.busy = true → a.key = b.key → a.candidateId = b.candidateId

/-- Any transaction, as far as it reaches the candidates that were there. -/
def CheckTables.Moves (before after : CheckTables) : Prop :=
  Table.Moves CandidateRow.candidateId RowMoves (fun _ => True) before.candidates after.candidates

variable {before after : CheckTables}

lemma CheckTables.Steps.moves (h : before.Steps after) : before.Moves after :=
  Table.Moves.mono (fun _ _ h => h.toRowMoves) (fun _ _ => trivial) h

lemma CheckTables.Moves.refl (tables : CheckTables) : tables.Moves tables :=
  Table.Moves.refl RowMoves.refl tables.candidates

lemma CheckTables.Moves.trans {middle : CheckTables} (h : before.Moves middle)
    (h' : middle.Moves after) : before.Moves after :=
  Table.Moves.trans RowMoves.trans (fun _ _ _ _ => trivial) h h'

lemma CheckTables.Moves.settles (h : before.Moves after) : before.Settles after := by
  intro row hmem
  obtain ⟨row', hmem', hmove⟩ := h.forward row hmem
  exact ⟨row', hmem', hmove.identity, hmove.fence, hmove.settled⟩

lemma CheckTables.Sound.empty : CheckTables.empty.Sound where
  nodup := .nil
  history _ hmem := absurd hmem List.not_mem_nil
  frozen _ hmem := absurd hmem List.not_mem_nil
  alone _ hmem := absurd hmem List.not_mem_nil

lemma CheckTables.Sound.steps (hsound : before.Sound) (h : before.Steps after) : after.Sound where
  nodup := h.nodup hsound.nodup
  history row hmem := by
    rcases h.backward row hmem with hfresh | ⟨row', hmem', hstep⟩
    · exact hfresh.history
    · exact hstep.history (hsound.history row' hmem')
  frozen row hmem := by
    rcases h.backward row hmem with hfresh | ⟨row', hmem', hstep⟩
    · exact hfresh.frozen
    · exact hstep.frozen (hsound.frozen row' hmem')
  alone a ha b hb hbusy hbusy' hkey := by
    -- a busy candidate was there, and was busy
    have hback : ∀ row ∈ after.candidates, row.state.busy = true →
        ∃ row' ∈ before.candidates, RowSteps row' row := by
      intro row hmem hrow
      rcases h.backward row hmem with hfresh | hstep
      · rw [hfresh.idle] at hrow
        cases hrow
      · exact hstep
    obtain ⟨a', ha', hstep⟩ := hback a ha hbusy
    obtain ⟨b', hb', hstep'⟩ := hback b hb hbusy'
    rw [hstep.identity, hstep'.identity]
    exact hsound.alone a' ha' b' hb' (hstep.busy hbusy) (hstep'.busy hbusy')
      (hstep.key.symm.trans (hkey.trans hstep'.key))

variable {store : StoreCheckStore} {cand : FrozenCandidate} {granted : ClaimedCandidate}

section

variable (h : ClaimGranted store cand granted before after) (hsound : before.Sound)
include h hsound

lemma ClaimGranted.moves : before.Moves after := by
  obtain ⟨row, hmem, hid, hstate, _, hfence⟩ := h.moved
  rw [h.after]
  refine Table.Moves.update (fun _ _ h => h.identity) RowMoves.refl fun other hother hpend => ?_
  simp only [StoreCheckStore.pendingRow, Bool.and_eq_true, beq_iff_eq] at hpend
  have hsame : other = row :=
    Table.eq_of_key hsound.nodup hother hmem (hpend.1.trans hid.symm)
  rw [hsame]
  exact rowMoves_claimed hstate (by rw [hfence]; exact Nat.le_succ _)

lemma ClaimGranted.sound : after.Sound := by
  have hmoves := h.moves hsound
  have hback : ∀ row ∈ after.candidates, ∃ row' ∈ before.candidates, RowMoves row' row ∧
      (row.state.busy = true → row'.state.busy = true ∨
        row.candidateId = granted.id ∧ row'.key = store.claimKey cand) := by
    intro row hmem
    obtain ⟨taken, htaken, hid, hstate, hkey, hfence⟩ := h.moved
    rw [h.after] at hmem
    obtain ⟨row', hmem', rfl⟩ := List.mem_map.mp hmem
    split_ifs with hpend
    · simp only [StoreCheckStore.pendingRow, Bool.and_eq_true, beq_iff_eq] at hpend
      have hsame : row' = taken :=
        Table.eq_of_key hsound.nodup hmem' htaken (hpend.1.trans hid.symm)
      refine ⟨row', hmem', rowMoves_claimed hpend.2 ?_, fun _ => .inr ⟨hpend.1, ?_⟩⟩
      · rw [hsame, hfence]
        exact Nat.le_succ _
      · rw [hsame]
        exact hkey
    · exact ⟨row', hmem', .refl row', .inl⟩
  refine ⟨hmoves.nodup hsound.nodup, fun row hmem => ?_, fun row hmem => ?_,
    fun a ha b hb hbusy hbusy' hkey => ?_⟩
  · obtain ⟨row', hmem', hmove, _⟩ := hback row hmem
    exact hmove.history (hsound.history row' hmem')
  · obtain ⟨row', hmem', hmove, _⟩ := hback row hmem
    exact hmove.frozen (hsound.frozen row' hmem')
  · obtain ⟨a', ha', hmove, hcase⟩ := hback a ha
    obtain ⟨b', hb', hmove', hcase'⟩ := hback b hb
    have hkeys : a'.key = b'.key := hmove.key.symm.trans (hkey.trans hmove'.key)
    -- nobody else was busy under the key that the claim took
    rcases hcase hbusy with hbefore | ⟨hid, htaken⟩
    · rcases hcase' hbusy' with hbefore' | ⟨_, htaken'⟩
      · rw [hmove.identity, hmove'.identity]
        exact hsound.alone a' ha' b' hb' hbefore hbefore' hkeys
      · have hidle := h.idle a' ha' (hkeys.trans htaken')
        rw [hbefore] at hidle
        cases hidle
    · rcases hcase' hbusy' with hbefore' | ⟨hid', _⟩
      · have hidle := h.idle b' hb' (hkeys.symm.trans htaken)
        rw [hbefore'] at hidle
        cases hidle
      · exact hid.trans hid'.symm

end

/-! ### Steps of the machine -/

lemma Except.of_map_snd {α : Type} {result : Except StoreError (α × CheckTables)}
    {after : CheckTables} (h : result.map (·.2) = .ok after) :
    ∃ outcome, result = .ok (outcome, after) := by
  cases result with
  | error error => cases h
  | ok value =>
    cases h
    exact ⟨value.1, rfl⟩

variable {op : CheckStoreOp}

/-- **What a transaction commits**: steps, or the grant of a claim. -/
lemma commit_cases (hsound : before.Sound) (h : op.commit before = .ok after) :
    (op.granted before = none ∧ before.Steps after) ∨
    ∃ store cand granted, op.granted before = some (granted.id, granted.fence) ∧
      ClaimGranted store cand granted before after := by
  cases op with
  | release store claimed =>
    obtain ⟨_, h⟩ := Except.of_map_snd h
    exact .inl ⟨rfl, (StoreCheckStore.moved_releaseUnattemptedClaim h).steps⟩
  | savePreparation store evidence claimed preparation =>
    obtain ⟨_, h⟩ := Except.of_map_snd h
    exact .inl ⟨rfl, (StoreCheckStore.moved_savePreparation h).steps⟩
  | claim store evidence cand nowMs bypass =>
    obtain ⟨outcome, h⟩ := Except.of_map_snd h
    rcases claim_cases hsound.frozen h with ⟨granted, rfl, hgrant⟩ | ⟨hnone, hsteps⟩
    · refine .inr ⟨store, cand, granted, ?_, hgrant⟩
      simp only [CheckStoreOp.granted, h]
    · refine .inl ⟨?_, hsteps⟩
      cases outcome with
      | claimed granted => exact absurd rfl (hnone granted)
      | notDue retryAtUnixMs | stale => simp only [CheckStoreOp.granted, h]
  | dispatch store evidence claimed nowMs cooldownNanos attempt =>
    obtain ⟨_, h⟩ := Except.of_map_snd h
    exact .inl ⟨rfl, (StoreCheckStore.moved_dispatch h).steps⟩
  | settleFailure store evidence claimed attempt failure diagnostic =>
    obtain ⟨_, h⟩ := Except.of_map_snd h
    exact .inl ⟨rfl, (StoreCheckStore.moved_settleFailure h).steps⟩
  | saveDecisionAnswer store evidence claimed attempt evaluated =>
    obtain ⟨_, h⟩ := Except.of_map_snd h
    exact .inl ⟨rfl, StoreCheckStore.steps_saveDecisionAnswer hsound.nodup h⟩
  | startLocal store evidence claimed nowMs cooldownNanos preparation =>
    obtain ⟨_, h⟩ := Except.of_map_snd h
    exact .inl ⟨rfl, (StoreCheckStore.moved_startLocal h).steps⟩
  | terminal store evidence claimed detail notAssessed preparation diagnostic =>
    obtain ⟨_, h⟩ := Except.of_map_snd h
    exact .inl ⟨rfl, StoreCheckStore.steps_terminalWithDiagnostic hsound.nodup h⟩
  | accept store gate view claimed accepted =>
    obtain ⟨_, h⟩ := Except.of_map_snd h
    exact .inl ⟨rfl, steps_accept h⟩
  | overflow id safeReason =>
    obtain ⟨_, h⟩ := Except.of_map_snd h
    exact .inl ⟨rfl, (moved_recordBurnCheckOverflow h).steps⟩
  | cancelUnfinished =>
    cases h
    exact .inl ⟨rfl, steps_cancelUnfinished before⟩
  | recoverAbandoned store =>
    cases h
    exact .inl ⟨rfl, steps_recoverAbandoned store before⟩
  | recoverRow store evidence row =>
    obtain ⟨_, h⟩ := Except.of_map_snd h
    exact .inl ⟨rfl, (RecoveryCandidateRow.moved_recoverRow h).steps⟩
  | lifecycle store definitionId transition act =>
    exact .inl ⟨rfl, steps_persistLifecycle h⟩
  | persistPage store page => exact .inl ⟨rfl, (moved_persistPage h).steps⟩
  | initializeRecent store act branch cand =>
    exact .inl ⟨rfl, (moved_initializeRecent h).steps⟩
  | invalidate cond =>
    cases h
    exact .inl ⟨rfl, .invalidate before cond⟩

/-- **One step**: it keeps the invariant, moves the candidates, and grants a fence
above every fence that the candidate had. -/
lemma checkStore_step {label : CheckStoreLabel} (hsound : before.Sound)
    (h : checkStore.step before label after) : after.Sound ∧ before.Moves after ∧
      ∀ id fence, label.granted = some (id, fence) →
        (∃ row ∈ before.candidates, row.candidateId = id ∧ row.claimFence < fence) ∧
        ∃ row ∈ after.candidates, row.candidateId = id ∧ row.claimFence = fence := by
  obtain ⟨hlabel, rfl⟩ := h
  rw [hlabel]
  unfold CheckStoreOp.after
  cases hcommit : label.op.commit before with
  | error error =>
    refine ⟨hsound, .refl before, fun id fence hgrant => ?_⟩
    rw [CheckStoreOp.granted_of_error hcommit] at hgrant
    cases hgrant
  | ok after =>
    dsimp only
    rcases commit_cases hsound hcommit with
      ⟨hnone, hsteps⟩ | ⟨store, cand, granted, hsome, hclaim⟩
    · refine ⟨hsound.steps hsteps, hsteps.moves, fun id fence hgrant => ?_⟩
      rw [hnone] at hgrant
      cases hgrant
    · refine ⟨hclaim.sound hsound, hclaim.moves hsound, fun id fence hgrant => ?_⟩
      rw [hsome] at hgrant
      cases hgrant
      obtain ⟨row, hmem, hid, hstate, _, hfence⟩ := hclaim.moved
      refine ⟨⟨row, hmem, hid, by rw [hfence]; exact Nat.lt_succ_self _⟩, ?_⟩
      rw [hclaim.after]
      refine ⟨_, List.mem_map_of_mem hmem, ?_⟩
      have hpend : StoreCheckStore.pendingRow granted.id row = true := by
        simp only [StoreCheckStore.pendingRow, Bool.and_eq_true, beq_iff_eq]
        exact ⟨hid, hstate⟩
      rw [if_pos hpend]
      exact ⟨hid, rfl⟩

lemma checkStore_run {labels : List CheckStoreLabel} (hsound : before.Sound)
    (h : checkStore.Run before labels after) : after.Sound ∧ before.Moves after := by
  induction h with
  | nil tables => exact ⟨hsound, .refl tables⟩
  | cons hstep _ ih =>
    obtain ⟨hmiddle, hmoves, _⟩ := checkStore_step hsound hstep
    obtain ⟨hafter, hmoves'⟩ := ih hmiddle
    exact ⟨hafter, hmoves.trans hmoves'⟩

/-- The fences granted so far are distinct, and none is above the current one. -/
structure FencesBelow (labels : List CheckStoreLabel) (tables : CheckTables) : Prop where
  sound : tables.Sound
  nodup : (labels.filterMap CheckStoreLabel.granted).Nodup
  below : ∀ id fence, (id, fence) ∈ labels.filterMap CheckStoreLabel.granted →
    ∃ row ∈ tables.candidates, row.candidateId = id ∧ fence ≤ row.claimFence

lemma FencesBelow.step {labels : List CheckStoreLabel} {label : CheckStoreLabel}
    (hfences : FencesBelow labels before) (hstep : checkStore.step before label after) :
    FencesBelow (labels ++ [label]) after := by
  obtain ⟨hafter, hmoves, hgrant⟩ := checkStore_step hfences.sound hstep
  -- the fences granted before are still not above the current ones
  have hbelow : ∀ id fence, (id, fence) ∈ labels.filterMap CheckStoreLabel.granted →
      ∃ row ∈ after.candidates, row.candidateId = id ∧ fence ≤ row.claimFence := by
    intro id fence hmem
    obtain ⟨row, hrow, hid, hle⟩ := hfences.below id fence hmem
    obtain ⟨row', hrow', hmove⟩ := hmoves.forward row hrow
    exact ⟨row', hrow', hmove.identity.trans hid, Nat.le_trans hle hmove.fence⟩
  cases hlabel : label.granted with
  | none =>
    have hsame : (labels ++ [label]).filterMap CheckStoreLabel.granted =
        labels.filterMap CheckStoreLabel.granted := by
      rw [List.filterMap_append, List.filterMap_cons_none hlabel, List.filterMap_nil,
        List.append_nil]
    exact ⟨hafter, hsame ▸ hfences.nodup, hsame ▸ hbelow⟩
  | some grant =>
    obtain ⟨id, fence⟩ := grant
    obtain ⟨⟨taken, htaken, hid, hlt⟩, row, hrow, hid', hfence⟩ := hgrant id fence hlabel
    have hsnoc : (labels ++ [label]).filterMap CheckStoreLabel.granted =
        labels.filterMap CheckStoreLabel.granted ++ [(id, fence)] := by
      rw [List.filterMap_append, List.filterMap_cons_some hlabel, List.filterMap_nil]
    refine ⟨hafter, ?_, fun id' fence' hmem => ?_⟩
    · rw [hsnoc, List.nodup_append]
      refine ⟨hfences.nodup, List.nodup_singleton _, fun grant hmem grant' hmem' heq => ?_⟩
      -- the new fence is above every fence granted for the candidate
      rw [List.mem_singleton.mp hmem'] at heq
      rw [heq] at hmem
      obtain ⟨other, hother, hother', hle⟩ := hfences.below id fence hmem
      have hsame : other = taken :=
        Table.eq_of_key hfences.sound.nodup hother htaken (hother'.trans hid.symm)
      rw [hsame] at hle
      exact absurd hle (Nat.not_le_of_lt hlt)
    · rw [hsnoc, List.mem_append, List.mem_singleton] at hmem
      rcases hmem with hmem | hmem
      · exact hbelow id' fence' hmem
      · cases hmem
        exact ⟨row, hrow, hid', Nat.le_of_eq hfence.symm⟩

lemma checkStore_fences {labels : List CheckStoreLabel}
    (h : checkStore.Run .empty labels after) :
    (labels.filterMap CheckStoreLabel.granted).Nodup := by
  have hinvariant : FencesBelow ([] ++ labels) after :=
    h.trace_invariant (I := FencesBelow) (P := fun _ => True)
      (fun _ _ _ _ _ hstep hfences => hfences.step hstep) (fun _ _ => trivial)
      ⟨.empty, .nil, fun _ _ hmem => absurd hmem List.not_mem_nil⟩
  exact hinvariant.nodup

lemma CheckTables.Sound.exclusive {tables : CheckTables} (h : tables.Sound) :
    tables.Exclusive := by
  intro key
  rw [List.countP_eq_length_filter]
  generalize hbusy : tables.candidates.filter (fun row => row.key == key && row.state.busy) = busy
  have hmem : ∀ row ∈ busy, row ∈ tables.candidates ∧ row.key = key ∧ row.state.busy = true := by
    intro row hrow
    rw [← hbusy, List.mem_filter, Bool.and_eq_true, beq_iff_eq] at hrow
    exact ⟨hrow.1, hrow.2.1, hrow.2.2⟩
  have hnodup : (busy.map CandidateRow.candidateId).Nodup := by
    rw [← hbusy]
    exact h.nodup.sublist (List.Sublist.map _ List.filter_sublist)
  match busy with
  | [] => exact Nat.zero_le 1
  | [_] => exact Nat.le_refl 1
  | a :: b :: rest =>
    obtain ⟨ha, hkey, hbusy'⟩ := hmem a List.mem_cons_self
    obtain ⟨hb, hkey', hbusy''⟩ := hmem b (List.mem_cons_of_mem _ List.mem_cons_self)
    have hid := h.alone a ha b hb hbusy' hbusy'' (hkey.trans hkey'.symm)
    rw [List.map_cons, List.map_cons, List.nodup_cons] at hnodup
    exact absurd (hid ▸ List.mem_cons_self) hnodup.1

/-! ### Fencing -/

lemma CheckStoreOp.after_of_ok (h : op.commit before = .ok after) :
    op.after before = after := by
  unfold CheckStoreOp.after
  rw [h]

lemma CheckStoreOp.after_of_error {error : StoreError}
    (h : op.commit before = .error error) : op.after before = before := by
  unfold CheckStoreOp.after
  rw [h]

lemma fenced_accept_iff {gate : RegisteredActivation → Bool} {view : AcceptanceView}
    {claimed : ClaimedCandidate} {accepted : BurnCheckAnswer} (hsound : before.Sound) :
    (CheckStoreOp.accept store gate view claimed accepted).Fenced before
        ((CheckStoreOp.accept store gate view claimed accepted).after before) ↔
      ¬ (CheckStoreOp.accept store gate view claimed accepted).RevokesForOthers before := by
  have hcommit : (CheckStoreOp.accept store gate view claimed accepted).commit before =
      (store.accept gate view claimed accepted before).map (·.2) := rfl
  constructor
  · rintro hfenced ⟨⟨act, hreac⟩, horigin, row, hsaved, hansd, hunheld⟩
    obtain ⟨outcome, after, hok, hiff⟩ :=
      fenced_tryAccept ⟨hsound.nodup, hsaved, hunheld⟩ view accepted
    have hafter := hfenced _ rfl row hsaved hunheld
    rw [hreac.accept_eq, hok] at hcommit
    rw [CheckStoreOp.after_of_ok hcommit] at hafter
    exact hiff.mp hafter ⟨hansd, horigin⟩
  · rintro hnot _ ⟨rfl⟩ row hsaved hunheld
    by_cases hreac : ∃ act, ReachesTables store gate claimed accepted act
    · obtain ⟨act, hreach⟩ := hreac
      obtain ⟨outcome, after, hok, hiff⟩ :=
        fenced_tryAccept ⟨hsound.nodup, hsaved, hunheld⟩ view accepted
      rw [hreach.accept_eq, hok] at hcommit
      rw [CheckStoreOp.after_of_ok hcommit]
      exact hiff.mpr fun ⟨hansd, horigin⟩ =>
        hnot ⟨⟨act, hreach⟩, horigin, row, hsaved, hansd, hunheld⟩
    · cases haccept : store.accept gate view claimed accepted before with
      | error error =>
        rw [haccept] at hcommit
        rw [CheckStoreOp.after_of_error hcommit]
        exact hsaved
      | ok value =>
        have hsame := accept_eq_of_not (not_exists.mp hreac) haccept
        rw [haccept] at hcommit
        rw [CheckStoreOp.after_of_ok hcommit]
        dsimp only
        rw [hsame]
        exact hsaved

lemma fenced_of_commit {claim : BurnCheckCandidateClaim}
    (hsound : before.Sound) (hclaim : op.claim? = some claim)
    (hcommit : ∀ after row, Outdated before claim row → op.commit before = .ok after →
      after.candidate? claim.candidateId = some row) : op.Fenced before (op.after before) := by
  rintro claim' hclaim' row hsaved hunheld
  cases hclaim.symm.trans hclaim'
  cases h : op.commit before with
  | error error =>
    rw [CheckStoreOp.after_of_error h]
    exact hsaved
  | ok after =>
    rw [CheckStoreOp.after_of_ok h]
    exact hcommit after row ⟨hsound.nodup, hsaved, hunheld⟩ h

lemma fenced_of_map {claim : BurnCheckCandidateClaim} {α : Type}
    {result : Except StoreError (α × CheckTables)} (hsound : before.Sound)
    (hclaim : op.claim? = some claim) (hrun : op.commit before = result.map Prod.snd)
    (hkept : ∀ {after row value}, Outdated before claim row → result = .ok (value, after) →
      after.candidate? claim.candidateId = some row) : op.Fenced before (op.after before) :=
  fenced_of_commit hsound hclaim fun _ _ hrow h =>
    have ⟨_, h⟩ := Except.of_map_snd (hrun.symm.trans h)
    hkept hrow h

/-- **Fencing.**  A transaction is fenced unless it is an acceptance that revokes
an answer that somebody else holds. -/
lemma fenced_iff (hsound : before.Sound) :
    op.Fenced before (op.after before) ↔ ¬ op.RevokesForOthers before := by
  cases op with
  | accept store gate view claimed accepted => exact fenced_accept_iff hsound
  | release store claimed =>
    exact iff_of_true (fenced_of_map hsound rfl rfl StoreCheckStore.fenced_releaseUnattemptedClaim) not_false
  | savePreparation store evidence claimed preparation =>
    exact iff_of_true (fenced_of_map hsound rfl rfl StoreCheckStore.fenced_savePreparation) not_false
  | dispatch store evidence claimed nowMs cooldownNanos attempt =>
    exact iff_of_true (fenced_of_map hsound rfl rfl StoreCheckStore.fenced_dispatch) not_false
  | settleFailure store evidence claimed attempt failure diagnostic =>
    exact iff_of_true (fenced_of_map hsound rfl rfl StoreCheckStore.fenced_settleFailure) not_false
  | saveDecisionAnswer store evidence claimed attempt evaluated =>
    exact iff_of_true (fenced_of_map hsound rfl rfl StoreCheckStore.fenced_saveDecisionAnswer) not_false
  | startLocal store evidence claimed nowMs cooldownNanos preparation =>
    exact iff_of_true (fenced_of_map hsound rfl rfl StoreCheckStore.fenced_startLocal) not_false
  | terminal store evidence claimed detail notAssessed preparation diagnostic =>
    exact iff_of_true (fenced_of_map hsound rfl rfl StoreCheckStore.fenced_terminalWithDiagnostic) not_false
  | _ => exact iff_of_true (fun _ hclaim => nomatch hclaim) not_false

/-! ### Runs -/

lemma checkStore_deterministic (s : CheckTables) (label : CheckStoreLabel) (t t' : CheckTables)
    (h : checkStore.step s label t) (h' : checkStore.step s label t') : t = t' :=
  h.2.trans h'.2.symm

def CheckStoreOp.labels (tables : CheckTables) : List CheckStoreOp → List CheckStoreLabel
  | [] => []
  | op :: ops => ⟨op, op.granted tables⟩ :: labels (op.after tables) ops

lemma CheckStoreOp.run_labels (tables : CheckTables) (ops : List CheckStoreOp) :
    checkStore.Run tables (CheckStoreOp.labels tables ops)
      (ops.foldl (fun tables op => op.after tables) tables) := by
  induction ops generalizing tables with
  | nil => exact .nil tables
  | cons op ops ih => exact .cons ⟨rfl, rfl⟩ (ih (op.after tables))

/-- **The candidate state machine is safe** exactly in the runs where no acceptance
revokes an answer that somebody else holds. -/
theorem candidate_machine_safe_iff {labels : List CheckStoreLabel} {tables : CheckTables}
    (hrun : checkStore.Run .empty labels tables) :
    RunSafe labels ↔
      ∀ ls label ls' s, labels = ls ++ label :: ls' → checkStore.Run .empty ls s →
        ¬ label.op.RevokesForOthers s := by
  constructor
  · intro hsafe ls label ls' s hsplit hbefore
    have hsound := (checkStore_run .empty hbefore).1
    exact (fenced_iff hsound).mp (hsafe.fenced ls label ls' s _ hsplit hbefore
      (by
        -- the label is the one the machine gives this transaction
        rw [hsplit] at hrun
        obtain ⟨s', hs', hrest⟩ := hrun.of_append
        obtain ⟨t, hstep, _⟩ := hrest.of_cons
        have hsame : s' = s := hs'.unique checkStore_deterministic hbefore
        rw [hsame] at hstep
        exact ⟨hstep.1, rfl⟩))
  · intro hnot
    exact {
      exclusive := fun ls ls' s _ hbefore => (checkStore_run .empty hbefore).1.exclusive
      settles := fun ls ls' ls'' s t _ hbefore hstretch =>
        (checkStore_run (checkStore_run .empty hbefore).1 hstretch).2.settles
      fenced := fun ls label ls' s t hsplit hbefore hstep => by
        have hsound := (checkStore_run .empty hbefore).1
        rw [hstep.2]
        exact (fenced_iff hsound).mpr (hnot ls label ls' s hsplit hbefore)
      fences := checkStore_fences hrun
      history := fun ls ls' s _ hbefore => (checkStore_run .empty hbefore).1.history }

end CheckStore

/-! ### An outdated acceptance -/


/-- A local check in the scope `/work`. -/
def localActivation : RegisteredActivation where
  toEffectiveActivation :=
    let activation := userMessageActivation 1 Nat.one_pos one_le_MAX_WINDOW_SIZE
    { activation with
      compiled := { activation.compiled with
        trigger := { activation.compiled.trigger with window := none } } }
  revision := Vector.replicate 32 0
  requirements := []
  definitionScope := "global"
  sourcePaths := []
  projectRoot := none

def localStore (owner : String) : StoreCheckStore where
  owner
  scope := localActivation.id.scope
  activations id := if id = localActivation.id then some localActivation else none

def localCandidate : FrozenCandidate where
  activation := localActivation.id
  branch := "main"
  triggerPosition := 1
  messages := []
  context := ⟨.object [], []⟩
  dependencies := []
  fingerprint := Vector.replicate 32 1

def currentEvidence : EvidenceView := letI := asciiPlatform;
  { requestOriginCurrent := fun _ => true
    typedDependenciesCurrent := fun _ => true
    observationsCurrent := fun _ => true
    preparedValid := fun _ _ => true
    preparationFits := fun _ => true }

def localClaim : ClaimedCandidate := ⟨localCandidate.fingerprint, localCandidate, none, 1⟩

/-- The candidate is answered under the first store's claim and taken over by the second one. -/
def takeoverOps : List (@CheckStoreOp asciiPlatform) := letI := asciiPlatform
  [.lifecycle (localStore "a") "check" (.activated localActivation) (some localActivation.id),
    .persistPage (localStore "a")
      { activation := localActivation
        accepted := true
        revoked := fun _ => false
        invalidatedBranches := []
        resetBranches := []
        candidates := [localCandidate]
        dependenciesCurrent := fun _ => true },
    .claim (localStore "a") currentEvidence localCandidate 0 false,
    .startLocal (localStore "a") currentEvidence localClaim 0 0 ⟨1, 0, EvaluationBudget.default⟩,
    .recoverAbandoned (localStore "b")]

/-- The first store accepts under its old claim, after the session changed its origin. -/
def outdatedAccept : @CheckStoreOp asciiPlatform := letI := asciiPlatform
  .accept (localStore "a") (fun _ => true)
    { currentEvidence with
      requestOriginCurrent := fun _ => false
      paused := false
      sourcePending := false }
    localClaim ⟨.localWork, .object [], none⟩

def takenOver : @CheckTables asciiPlatform := letI := asciiPlatform
  takeoverOps.foldl (fun tables op => op.after tables) .empty

lemma takenOver_row : letI := asciiPlatform
    ∃ row, takenOver.candidate? localCandidate.fingerprint = some row ∧
      row.state = .answered ∧ row.heldBy ⟨localCandidate.fingerprint, "a", 1⟩ = false := by
  let platform := asciiPlatform
  have hrow : (takenOver.candidate? localCandidate.fingerprint).map
      (fun row => (row.state, row.heldBy ⟨localCandidate.fingerprint, "a", 1⟩)) =
        some (.answered, false) := by decide
  obtain ⟨row, hrow, h⟩ := Option.map_eq_some_iff.mp hrow
  exact ⟨row, hrow, congrArg Prod.fst h, congrArg Prod.snd h⟩

/-- An old owner revokes the answer that the new owner took over. -/
theorem not_candidate_machine_safe :
    letI := asciiPlatform
    ∃ labels tables, checkStore.Run .empty labels tables ∧ ¬ RunSafe labels := by
  let platform := asciiPlatform
  refine ⟨_, _, CheckStoreOp.run_labels .empty (takeoverOps ++ [outdatedAccept]), fun hsafe => ?_⟩
  obtain ⟨row, hrow, hstate, hheld⟩ := takenOver_row
  have hsplit : CheckStoreOp.labels .empty (takeoverOps ++ [outdatedAccept]) =
      CheckStoreOp.labels .empty takeoverOps ++
        ⟨outdatedAccept, outdatedAccept.granted takenOver⟩ :: [] := rfl
  have hfenced := hsafe.fenced _ _ _ _ _ hsplit (CheckStoreOp.run_labels .empty takeoverOps)
    ⟨rfl, rfl⟩ ⟨localCandidate.fingerprint, "a", 1⟩ rfl row hrow hheld
  -- behind the acceptance the candidate is stale
  have hstale : ((outdatedAccept.after takenOver).candidate? localCandidate.fingerprint).map
      CandidateRow.state = some .stale := by decide
  rw [show (outdatedAccept.after takenOver).candidate? localCandidate.fingerprint = some row
    from hfenced, Option.map_some, hstate] at hstale
  cases hstale

/-- The run up to the takeover is safe. -/
theorem candidate_machine_safe_takenOver : letI := asciiPlatform
    RunSafe (CheckStoreOp.labels .empty takeoverOps) := by
  let platform := asciiPlatform
  refine (candidate_machine_safe_iff (CheckStoreOp.run_labels .empty takeoverOps)).mpr
    fun ls label ls' s hsplit _ hrevokes => ?_
  -- no acceptance is among its transactions
  have hops : ∀ label ∈ CheckStoreOp.labels .empty takeoverOps,
      ∀ store gate view claimed accepted,
        label.op ≠ .accept store gate view claimed accepted := by
    intro label hmem store gate view claimed accepted
    simp only [takeoverOps, CheckStoreOp.labels, List.mem_cons, List.not_mem_nil, or_false] at hmem
    rcases hmem with rfl | rfl | rfl | rfl | rfl <;> exact fun hop => by cases hop
  have hmem : label ∈ CheckStoreOp.labels .empty takeoverOps := by
    rw [hsplit]
    exact List.mem_append_right ls List.mem_cons_self
  cases hop : label.op with
  | accept store gate view claimed accepted => exact hops label hmem _ _ _ _ _ hop
  | _ =>
    rw [hop] at hrevokes
    exact hrevokes

end Antiburn
