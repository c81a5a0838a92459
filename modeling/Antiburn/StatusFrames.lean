/-
What a transaction leaves of the activations, the watermarks and the statuses.

Only an acceptance and a change of a lifecycle write these tables; `SameStatus` says so
of every other transaction.  An acceptance that is committed is read here once:
`accept_cases` has all that it found and all that it wrote.
-/
import Antiburn.EvidenceStore

namespace Antiburn

/-! ### Upserts -/

section Upserts

variable {ρ : Type} {conflict p : ρ → Bool} {row : ρ}

lemma find?_upsert_self (hself : p row = true) (hconfl : ∀ row, p row = true → conflict row = true)
    (rows : List ρ) : (upsert conflict (fun _ => row) row rows).find? p = some row := by
  unfold upsert
  split_ifs with hany
  · rw [Table.update, List.find?_map]
    have hsome : (rows.find? (p ∘ fun old => if conflict old then row else old)).isSome := by
      obtain ⟨old, hmem, hold⟩ := List.any_eq_true.mp hany
      rw [List.find?_isSome]
      refine ⟨old, hmem, ?_⟩
      show p (if conflict old then row else old) = true
      rw [if_pos hold]
      exact hself
    obtain ⟨old, hold⟩ := Option.isSome_iff_exists.mp hsome
    have hfound : p (if conflict old then row else old) = true := by
      have hp := List.find?_some hold
      exact hp
    rw [hold, Option.map_some]
    refine congrArg some ?_
    split_ifs at hfound ⊢ with hc
    · rfl
    · exact absurd (hconfl old hfound) hc
  · rw [Table.insert, List.find?_append]
    have hnone : rows.find? p = none := by
      refine List.find?_eq_none.mpr fun old hmem hold => hany ?_
      exact List.any_eq_true.mpr ⟨old, hmem, hconfl old hold⟩
    rw [hnone, Option.none_or, List.find?_singleton, if_pos hself]

lemma find?_upsert_of_not (hself : p row = false)
    (hconfl : ∀ row, p row = true → conflict row = false) (rows : List ρ) :
    (upsert conflict (fun _ => row) row rows).find? p = rows.find? p := by
  unfold upsert
  split_ifs with hany
  · rw [Table.update, List.find?_map]
    have hsame : (p ∘ fun old => if conflict old then row else old) = p := by
      funext old
      show p (if conflict old then row else old) = p old
      cases hold : conflict old with
      | false => rw [if_neg Bool.false_ne_true]
      | true =>
        rw [if_pos rfl, hself]
        cases hp : p old with
        | false => rfl
        | true => exact (hconfl old hp).symm.trans hold
    rw [hsame]
    rcases hfound : rows.find? p with - | old
    · rfl
    · refine congrArg some (if_neg ?_)
      rw [hconfl old (List.find?_some hfound)]
      exact Bool.false_ne_true
  · rw [Table.insert, List.find?_append, List.find?_singleton, if_neg (by rw [hself]; exact Bool.false_ne_true),
      Option.or_none]

lemma mem_upsert {rows : List ρ} {other : ρ}
    (hmem : other ∈ upsert conflict (fun _ => row) row rows) :
    other = row ∨ other ∈ rows ∧ conflict other = false := by
  unfold upsert at hmem
  split_ifs at hmem with hany
  · obtain ⟨old, hold, rfl⟩ := List.mem_map.mp hmem
    cases hc : conflict old with
    | true => exact .inl (if_pos rfl)
    | false => exact .inr ⟨by rwa [if_neg Bool.false_ne_true], by rwa [if_neg Bool.false_ne_true]⟩
  · rcases List.mem_append.mp hmem with hold | hnew
    · refine .inr ⟨hold, ?_⟩
      cases hc : conflict other with
      | false => rfl
      | true => exact absurd (List.any_eq_true.mpr ⟨other, hold, hc⟩) hany
    · exact .inl (List.mem_singleton.mp hnew)

lemma mem_upsert_self (rows : List ρ) : row ∈ upsert conflict (fun _ => row) row rows := by
  unfold upsert
  split_ifs with hany
  · obtain ⟨old, hmem, hold⟩ := List.any_eq_true.mp hany
    exact List.mem_map.mpr ⟨old, hmem, if_pos hold⟩
  · exact List.mem_append_right _ (List.mem_singleton.mpr rfl)

lemma mem_upsert_of_not {rows : List ρ} {other : ρ} (hmem : other ∈ rows)
    (hother : conflict other = false) : other ∈ upsert conflict (fun _ => row) row rows := by
  unfold upsert
  split_ifs with hany
  · exact List.mem_map.mpr ⟨other, hmem, if_neg (by rw [hother]; exact Bool.false_ne_true)⟩
  · exact List.mem_append_left _ hmem

lemma find?_filter_of_imp {q : ρ → Bool} (h : ∀ row, p row = true → q row = true)
    (rows : List ρ) : (rows.filter q).find? p = rows.find? p := by
  rw [List.find?_filter]
  refine congrArg (List.find? · rows) ?_
  funext row
  rw [Bool.eq_iff_iff]
  simp only [decide_eq_true_eq]
  exact ⟨fun hrow => hrow.2, fun hrow => ⟨h row hrow, hrow⟩⟩

end Upserts

variable [Platform]

/-! ### Transactions without statuses -/

variable {store : StoreCheckStore} {evidence : EvidenceView} {claimed : ClaimedCandidate}
  {before middle tables after : CheckTables} {outcome : ClaimOutcome}

namespace StoreCheckStore

open CheckTables.SameStatus

variable {attempt : DecisionAttempt} {nowMs : Nat}

lemma same_claim {cand : FrozenCandidate} {bypass : Bool}
    {granted : CandidateClaim}
    (h : store.claim evidence cand nowMs bypass tables = .ok (granted, after)) :
    tables.SameStatus after := by
  unfold claim at h
  obtain ⟨_, _, h⟩ := Except.of_bind_ok h
  dsimp only at h
  split at h
  · cases h
    exact refl tables
  · cases h
    exact refl tables
  split at h
  · cases h
    exact refl tables
  split at h
  · cases h
    exact update tables _ _
  obtain ⟨_, _, h⟩ := Except.of_bind_ok h
  split at h
  · cases h
    exact refl tables
  obtain ⟨_, _, h⟩ := Except.of_bind_ok h
  obtain ⟨_, _, h⟩ := Except.of_bind_ok h
  obtain ⟨_, _, h⟩ := Except.of_bind_ok h
  cases h
  exact update tables _ _

lemma same_saveDecisionAnswer {evaluated : DecisionResult}
    (h : store.saveDecisionAnswer evidence claimed attempt evaluated tables =
      .ok (outcome, after)) : tables.SameStatus after := by
  unfold saveDecisionAnswer at h
  obtain ⟨_, _, h⟩ := Except.of_bind_ok h
  obtain ⟨_, _, h⟩ := Except.of_bind_ok h
  obtain ⟨_, _, h⟩ := Except.of_bind_ok h
  obtain ⟨_, _, h⟩ := Except.of_bind_ok h
  obtain ⟨_, _, h⟩ := Except.of_bind_ok h
  obtain ⟨_, _, h⟩ := Except.of_bind_ok h
  obtain ⟨_, _, h⟩ := Except.of_bind_ok h
  dsimp only at h
  split at h
  · cases h
    exact (update tables _ _).trans (update _ _ _)
  · cases h
    exact ((update tables _ _).trans (update _ _ _)).trans (update _ _ _)

lemma same_terminalWithDiagnostic {detail : String} {notAssessed : Bool}
    {preparation : Option PreparationRecord} {diagnostic : Option EvaluationDiagnostic}
    (h : store.terminalWithDiagnostic evidence claimed detail notAssessed preparation diagnostic
      tables = .ok (outcome, after)) : tables.SameStatus after := by
  unfold terminalWithDiagnostic at h
  obtain ⟨_, _, h⟩ := Except.of_bind_ok h
  obtain ⟨_, _, h⟩ := Except.of_bind_ok h
  split at h
  · cases h
    exact refl tables
  · obtain ⟨_, _, h⟩ := Except.of_bind_ok h
    cases h
    exact update tables _ _

end StoreCheckStore

open CheckTables.SameStatus in
/-- **A transaction that writes no evidence leaves the statuses.** -/
lemma CheckStoreOp.same_commit {op : CheckStoreOp} (hop : op.leavesEvidence = true)
    (h : op.commit tables = .ok after) : tables.SameStatus after := by
  cases op with
  | release store claimed =>
    obtain ⟨_, h⟩ := Except.of_map_snd h
    exact (StoreCheckStore.moved_releaseUnattemptedClaim h).same
  | savePreparation store evidence claimed preparation =>
    obtain ⟨_, h⟩ := Except.of_map_snd h
    exact (StoreCheckStore.moved_savePreparation h).same
  | claim store evidence cand nowMs bypass =>
    obtain ⟨_, h⟩ := Except.of_map_snd h
    exact StoreCheckStore.same_claim h
  | dispatch store evidence claimed nowMs cooldownNanos attempt =>
    obtain ⟨_, h⟩ := Except.of_map_snd h
    exact (StoreCheckStore.moved_dispatch h).same
  | settleFailure store evidence claimed attempt failure diagnostic =>
    obtain ⟨_, h⟩ := Except.of_map_snd h
    exact (StoreCheckStore.moved_settleFailure h).same
  | saveDecisionAnswer store evidence claimed attempt evaluated =>
    obtain ⟨_, h⟩ := Except.of_map_snd h
    exact StoreCheckStore.same_saveDecisionAnswer h
  | startLocal store evidence claimed nowMs cooldownNanos preparation =>
    obtain ⟨_, h⟩ := Except.of_map_snd h
    exact (StoreCheckStore.moved_startLocal h).same
  | terminal store evidence claimed detail notAssessed preparation diagnostic =>
    obtain ⟨_, h⟩ := Except.of_map_snd h
    exact StoreCheckStore.same_terminalWithDiagnostic h
  | overflow id safeReason =>
    obtain ⟨_, h⟩ := Except.of_map_snd h
    exact (moved_recordBurnCheckOverflow h).same
  | cancelUnfinished | recoverAbandoned store =>
    cases h
    exact update tables _ _
  | recoverRow store evidence row =>
    obtain ⟨_, h⟩ := Except.of_map_snd h
    exact (RecoveryCandidateRow.moved_recoverRow h).same
  | invalidate cond =>
    cases h
    exact update tables _ _
  | accept | lifecycle | persistPage | initializeRecent => cases hop

/-! ### Acceptance -/

/-- What an acceptance that is committed found and wrote. -/
structure Accepts (view : AcceptanceView) (id : CandidateId) (accepted : BurnCheckAnswer)
    (row : CandidateRow) (before after : CheckTables) : Prop where
  saved : row ∈ before.candidates
  identity : row.candidateId = id
  active : before.generationActive row = true
  current : view.observationsCurrent id = true
  above : ∀ old, before.watermark row.key = some old → old < row.triggerPosition
  activations : after.activations = before.activations
  watermarks : after.watermarks =
    (before.saveWatermark row.key row.triggerPosition).watermarks
  currentStatus : after.currentStatus = accepted.statusWrite.elim before.currentStatus
    fun status => (before.saveStatus row.key status row.triggerPosition).currentStatus

variable {view : AcceptanceView} {accepted : BurnCheckAnswer}

open CheckTables.SameStatus in
lemma tryAccept_cases {claim : BurnCheckCandidateClaim}
    {outcome : AcceptanceOutcome}
    (h : tryAcceptBurnCheckAnswer view claim accepted tables = .ok (outcome, after)) :
    (outcome ≠ .accepted ∧ tables.SameStatus after) ∨
      outcome = .accepted ∧ ∃ row, Accepts view claim.candidateId accepted row tables after := by
  unfold tryAcceptBurnCheckAnswer at h
  dsimp only at h
  split at h
  · cases h
    exact .inl ⟨nofun, refl tables⟩
  split at h
  · cases h
    exact .inl ⟨nofun, update tables _ _⟩
  split at h
  · cases h
    exact .inl ⟨nofun, refl tables⟩
  split at h
  · cases h
    exact .inl ⟨nofun, update tables _ _⟩
  next row hrow =>
  obtain ⟨_, _, h⟩ := Except.of_bind_ok h
  split at h
  · cases h
    exact .inl ⟨nofun, refl tables⟩
  split at h
  · cases h
    exact .inl ⟨nofun, update tables _ _⟩
  next hcur =>
  split at h
  · cases h
    exact .inl ⟨nofun, update tables _ _⟩
  next hwater =>
  obtain ⟨_, _, h⟩ := Except.of_bind_ok h
  cases h
  have hfound : acceptable claim tables row = true := List.find?_some hrow
  simp only [acceptable, Bool.and_eq_true] at hfound
  refine .inr ⟨rfl, row, List.mem_of_find?_eq_some hrow,
    StoreCheckStore.candidateId_of_heldBy hfound.1.1, hfound.2, ?_, fun old hold => ?_, ?_, ?_, ?_⟩
  · rw [Bool.not_eq_true, Bool.or_eq_false_iff, Bool.not_eq_false', Bool.not_eq_false'] at hcur
    exact hcur.2
  · rw [hold, Option.any_some, decide_eq_true_eq] at hwater
    exact not_le.mp hwater
  · cases accepted.statusWrite <;> rfl
  · cases accepted.statusWrite <;> rfl
  · cases accepted.statusWrite <;> rfl

/-- **An acceptance** leaves the statuses, or found its candidate current and writes. -/
lemma accept_cases {gate : RegisteredActivation → Bool}
    {outcome : AcceptanceOutcome}
    (h : store.accept gate view claimed accepted tables = .ok (outcome, after)) :
    (outcome ≠ .accepted ∧ tables.SameStatus after) ∨
      outcome = .accepted ∧ ∃ row, Accepts view claimed.id accepted row tables after := by
  unfold StoreCheckStore.accept at h
  split at h
  · cases h
    exact .inl ⟨nofun, .refl tables⟩
  split at h
  · cases h
    exact .inl ⟨nofun, .refl tables⟩
  obtain ⟨_, _, h⟩ := Except.of_bind_ok h
  obtain ⟨claim, hclaim, h⟩ := Except.of_bind_ok h
  have hcases := tryAccept_cases h
  rwa [StoreCheckStore.claimRecord_ok hclaim] at hcases

end Antiburn
