/-
Fencing: what a write under an outdated claim does.

A claim that does not hold the candidate it names finds nothing to write, whatever
the transaction.  Acceptance is the exception: before it asks for the owner and the
fence, it makes an answered candidate stale whose request origin has changed.
-/
import Antiburn.CandidateSteps

namespace Antiburn

open StoreCheckStore

variable [Platform] {store : StoreCheckStore} {evidence : EvidenceView} {claimed : ClaimedCandidate}
  {tables after : CheckTables} {outcome : ClaimOutcome} {row : CandidateRow}
  {claim : BurnCheckCandidateClaim}

structure Outdated (tables : CheckTables) (claim : BurnCheckCandidateClaim) (row : CandidateRow) :
    Prop where
  nodup : (tables.candidates.map CandidateRow.candidateId).Nodup
  saved : tables.candidate? claim.candidateId = some row
  unheld : row.heldBy claim = false

namespace Outdated

section

variable (h : Outdated tables claim row)
include h

lemma none_held :
    ∀ other ∈ tables.candidates, other.heldBy claim = false := by
  intro other hmem
  obtain ⟨hmem', hid⟩ := Table.lookup_eq_some h.saved
  cases hheld : other.heldBy claim with
  | false => rfl
  | true =>
    have hsame : other = row :=
      Table.eq_of_key h.nodup hmem hmem' ((candidateId_of_heldBy hheld).trans hid.symm)
    rw [hsame, h.unheld] at hheld
    cases hheld

section

variable {p : CandidateRow → Bool} (hp : ∀ other, p other = true → other.heldBy claim = true)
include hp

lemma not_any : tables.candidates.any p = false := by
  rw [List.any_eq_false]
  intro other hmem hother
  have hheld := hp other hother
  rw [h.none_held other hmem] at hheld
  cases hheld

lemma find?_eq_none :
    tables.candidates.find? p = none := by
  rw [List.find?_eq_none]
  intro other hmem hother
  have hheld := hp other hother
  rw [h.none_held other hmem] at hheld
  cases hheld

end

lemma claimIsCurrent (store : StoreCheckStore)
    (evidence : EvidenceView) (act : RegisteredActivation) :
    tables.claimIsCurrent store evidence claim act = false := by
  apply Bool.eq_false_iff.mpr
  intro hcur
  obtain ⟨other, hmem, hheld, _⟩ := busy_of_claimIsCurrent hcur
  rw [h.none_held other hmem] at hheld
  cases hheld

lemma update {cond : CandidateRow → Bool}
    {set : CandidateRow → CandidateRow} (hset : ∀ row, (set row).candidateId = row.candidateId)
    (hnot : cond row = false) :
    (tables.update cond set).candidate? claim.candidateId = some row :=
  Table.lookup_update_of_not h.nodup hset h.saved hnot

end

end Outdated

namespace StoreCheckStore

lemma heldBy_of_releases (h : releases claim row = true) : row.heldBy claim = true := by
  unfold releases at h
  simp only [Bool.and_eq_true] at h
  exact h.1.1

variable {attempt : DecisionAttempt}

lemma heldBy_of_settles (h : settles claim attempt row = true) :
    row.heldBy claim = true := by
  unfold settles at h
  rw [Bool.and_eq_true] at h
  exact h.1

lemma fenced_releaseUnattemptedClaim
    (hrow : Outdated tables ⟨claimed.id, store.owner, claimed.fence⟩ row)
    (h : store.releaseUnattemptedClaim claimed tables = .ok (outcome, after)) :
    after.candidate? claimed.id = some row := by
  unfold releaseUnattemptedClaim at h
  obtain ⟨claim, hclaim, h⟩ := Except.of_bind_ok h
  obtain ⟨_, _, h⟩ := Except.of_bind_ok h
  obtain ⟨nextFence, _, h⟩ := Except.of_bind_ok h
  cases claimRecord_ok hclaim
  dsimp only at h
  rw [hrow.not_any fun _ => heldBy_of_releases] at h
  cases h
  exact hrow.saved

lemma fenced_savePreparation {preparation : PreparationRecord}
    (hrow : Outdated tables ⟨claimed.id, store.owner, claimed.fence⟩ row)
    (h : store.savePreparation evidence claimed preparation tables = .ok (outcome, after)) :
    after.candidate? claimed.id = some row := by
  unfold savePreparation at h
  obtain ⟨_, _, h⟩ := Except.of_bind_ok h
  obtain ⟨_, _, h⟩ := Except.of_bind_ok h
  split at h
  · cases h
  · obtain ⟨_, _, h⟩ := Except.of_bind_ok h
    obtain ⟨claim, hclaim, h⟩ := Except.of_bind_ok h
    obtain ⟨_, _, h⟩ := Except.of_bind_ok h
    cases claimRecord_ok hclaim
    rw [hrow.find?_eq_none fun other hother => by
      rw [Bool.and_eq_true] at hother
      exact hother.1] at h
    cases h
    exact hrow.saved

lemma fenced_dispatch {nowMs cooldownNanos : Nat}
    (hrow : Outdated tables ⟨claimed.id, store.owner, claimed.fence⟩ row)
    (h : store.dispatch evidence claimed nowMs cooldownNanos attempt tables = .ok (outcome, after)) :
    after.candidate? claimed.id = some row := by
  unfold dispatch at h
  obtain ⟨_, _, h⟩ := Except.of_bind_ok h
  obtain ⟨claim, hclaim, h⟩ := Except.of_bind_ok h
  obtain ⟨_, _, h⟩ := Except.of_bind_ok h
  cases claimRecord_ok hclaim
  split at h
  · cases h
    exact hrow.saved
  · rw [hrow.claimIsCurrent] at h
    cases h
    exact hrow.update (fun _ => rfl) (by rw [hrow.unheld]; rfl)

lemma fenced_settleFailure {failure : AttemptFailure}
    {diagnostic : EvaluationDiagnostic}
    (hrow : Outdated tables ⟨claimed.id, store.owner, claimed.fence⟩ row)
    (h : store.settleFailure evidence claimed attempt failure diagnostic tables =
      .ok (outcome, after)) : after.candidate? claimed.id = some row := by
  unfold settleFailure at h
  obtain ⟨_, _, h⟩ := Except.of_bind_ok h
  obtain ⟨_, _, h⟩ := Except.of_bind_ok h
  obtain ⟨claim, hclaim, h⟩ := Except.of_bind_ok h
  obtain ⟨_, hsettl, h⟩ := Except.of_bind_ok h
  cases claimRecord_ok hclaim
  have hsettl := ensure_ok hsettl
  rw [hrow.not_any fun _ => heldBy_of_settles] at hsettl
  cases hsettl

lemma fenced_saveDecisionAnswer {evaluated : DecisionResult}
    (hrow : Outdated tables ⟨claimed.id, store.owner, claimed.fence⟩ row)
    (h : store.saveDecisionAnswer evidence claimed attempt evaluated tables =
      .ok (outcome, after)) : after.candidate? claimed.id = some row := by
  unfold saveDecisionAnswer at h
  obtain ⟨_, _, h⟩ := Except.of_bind_ok h
  obtain ⟨_, _, h⟩ := Except.of_bind_ok h
  obtain ⟨_, _, h⟩ := Except.of_bind_ok h
  obtain ⟨_, _, h⟩ := Except.of_bind_ok h
  obtain ⟨claim, hclaim, h⟩ := Except.of_bind_ok h
  obtain ⟨_, hsettl, h⟩ := Except.of_bind_ok h
  cases claimRecord_ok hclaim
  have hsettl := ensure_ok hsettl
  rw [hrow.not_any fun _ => heldBy_of_settles] at hsettl
  cases hsettl

lemma fenced_startLocal {nowMs cooldownNanos : Nat} {preparation : LocalPreparation}
    (hrow : Outdated tables ⟨claimed.id, store.owner, claimed.fence⟩ row)
    (h : store.startLocal evidence claimed nowMs cooldownNanos preparation tables =
      .ok (outcome, after)) : after.candidate? claimed.id = some row := by
  unfold startLocal at h
  obtain ⟨claim, hclaim, h⟩ := Except.of_bind_ok h
  cases claimRecord_ok hclaim
  split at h
  · cases h
    exact hrow.saved
  · obtain ⟨_, _, h⟩ := Except.of_bind_ok h
    rw [hrow.claimIsCurrent] at h
    cases h
    exact hrow.saved

lemma fenced_terminalWithDiagnostic {detail : String} {notAssessed : Bool}
    {preparation : Option PreparationRecord} {diagnostic : Option EvaluationDiagnostic}
    (hrow : Outdated tables ⟨claimed.id, store.owner, claimed.fence⟩ row)
    (h : store.terminalWithDiagnostic evidence claimed detail notAssessed preparation diagnostic
      tables = .ok (outcome, after)) : after.candidate? claimed.id = some row := by
  unfold terminalWithDiagnostic at h
  obtain ⟨claim, hclaim, h⟩ := Except.of_bind_ok h
  obtain ⟨_, _, h⟩ := Except.of_bind_ok h
  cases claimRecord_ok hclaim
  rw [hrow.find?_eq_none fun _ => id] at h
  cases h
  exact hrow.saved

end StoreCheckStore

/-! ### Acceptance -/

/-- **An acceptance under an outdated claim** leaves the candidate, unless it finds
it answered with another request origin than the current one. -/
lemma fenced_tryAccept (hrow : Outdated tables claim row) (view : AcceptanceView)
    (accepted : BurnCheckAnswer) :
    ∃ outcome after, tryAcceptBurnCheckAnswer view claim accepted tables = .ok (outcome, after) ∧
      (after.candidate? claim.candidateId = some row ↔
        ¬ (row.state = .answered ∧ view.requestOriginCurrent claim.candidateId = false)) := by
  obtain ⟨hmem, hid⟩ := Table.lookup_eq_some hrow.saved
  have hnone : tables.candidates.find? (acceptable claim tables) = none := by
    refine hrow.find?_eq_none fun other hother => ?_
    simp only [acceptable, Bool.and_eq_true] at hother
    exact hother.1.1
  unfold tryAcceptBurnCheckAnswer
  rw [hnone]
  dsimp only
  split_ifs with haccd horigin hpaused
  · -- another answer of the candidate was accepted
    refine ⟨_, _, rfl, iff_of_true hrow.saved fun ⟨hansd, _⟩ => ?_⟩
    obtain ⟨other, hmem', hother⟩ := List.any_eq_true.mp haccd
    simp only [Bool.and_eq_true, beq_iff_eq] at hother
    have hsame : other = row := Table.eq_of_key hrow.nodup hmem' hmem (hother.1.trans hid.symm)
    rw [hsame, hansd] at hother
    cases hother.2
  · -- the write that does not ask for the claim
    have horigin' : view.requestOriginCurrent claim.candidateId = false := by simpa using horigin
    refine ⟨_, _, rfl, ?_⟩
    by_cases hansd : row.state = .answered
    · refine iff_of_false (fun hafter => ?_) (not_not.mpr ⟨hansd, horigin'⟩)
      obtain ⟨hmem', _⟩ := Table.lookup_eq_some hafter
      obtain ⟨before, hbefore, hmove⟩ := List.mem_map.mp hmem'
      split_ifs at hmove with hcond
      · rw [← hmove] at hansd
        cases hansd
      · rw [hmove] at hcond
        apply hcond
        simp only [answeredRow, Bool.and_eq_true, beq_iff_eq]
        exact ⟨hid, hansd⟩
    · refine iff_of_true (hrow.update (fun _ => rfl) ?_) fun h => hansd h.1
      unfold answeredRow
      rw [Bool.and_eq_false_iff]
      exact .inr (beq_eq_false_iff_ne.mpr hansd)
  all_goals
    have horigin' : view.requestOriginCurrent claim.candidateId = true := by simpa using horigin
    have hright : ¬ (row.state = .answered ∧
        view.requestOriginCurrent claim.candidateId = false) := by
      rintro ⟨_, hfalse⟩
      rw [horigin'] at hfalse
      cases hfalse
  · exact ⟨_, _, rfl, iff_of_true hrow.saved hright⟩
  · exact ⟨_, _, rfl, iff_of_true (hrow.update (fun _ => rfl) (by rw [hrow.unheld]; rfl)) hright⟩

structure ReachesTables (store : StoreCheckStore) (gate : RegisteredActivation → Bool)
    (claimed : ClaimedCandidate) (accepted : BurnCheckAnswer) (activation : RegisteredActivation) :
    Prop where
  registered : store.activations claimed.candidate.activation = some activation
  gate : gate activation = true
  valid : (accepted.answer.validateForDeclarations activation.compiled.decisions
    activation.requirements).isOk = true
  claim : (store.claimRecord claimed).isOk = true

variable {accepted : BurnCheckAnswer} {gate : RegisteredActivation → Bool}

lemma ReachesTables.accept_eq
    {act : RegisteredActivation}
    (h : ReachesTables store gate claimed accepted act) (view : AcceptanceView)
    (tables : CheckTables) : store.accept gate view claimed accepted tables =
      tryAcceptBurnCheckAnswer view ⟨claimed.id, store.owner, claimed.fence⟩ accepted tables := by
  obtain ⟨_, hvalid⟩ := Except.isOk_iff.mp h.valid
  obtain ⟨claim, hclaim⟩ := Except.isOk_iff.mp h.claim
  unfold StoreCheckStore.accept
  rw [h.registered]
  dsimp only
  rw [h.gate, hvalid, hclaim, claimRecord_ok hclaim]
  rfl

lemma accept_eq_of_not {view : AcceptanceView}
    {outcome : AcceptanceOutcome}
    (hnot : ∀ act, ¬ ReachesTables store gate claimed accepted act)
    (h : store.accept gate view claimed accepted tables = .ok (outcome, after)) :
    after = tables := by
  unfold StoreCheckStore.accept at h
  split at h
  · cases h
    rfl
  next act hregis =>
  split at h
  · cases h
    rfl
  next hgate =>
  obtain ⟨_, hvalid, h⟩ := Except.of_bind_ok h
  obtain ⟨claim, hclaim, h⟩ := Except.of_bind_ok h
  refine absurd ⟨hregis, by simpa using hgate, ?_, ?_⟩ (hnot act)
  · exact Except.isOk_iff.mpr ⟨_, Except.mapError_ok_iff.mp hvalid⟩
  · exact Except.isOk_iff.mpr ⟨_, hclaim⟩

end Antiburn
