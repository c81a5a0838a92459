/-
At-most-once dispatch.

The evaluator is called behind the write of an intent, and the next attempt of
validated progress never has a row.  A running task knows the durable rows of its
candidate, up to order, and no other task writes them (`Booked`); so an attempt
that was sent has a row for good, and is not sent again.  No clock, restart or
failed write enters the argument: rows may appear without a call, never the other
way round.
-/
import Antiburn.SchedulerBooks

namespace Antiburn

section Dispatch

variable [Platform]

/-! ### Durable rows -/

structure DurableRows.Keeps (rows : DurableRows) (candidate : FrozenCandidate)
    (after : DurableRows) : Prop where
  elsewhere : ∀ key id, ¬(key = candidate.key ∧ id = candidate.fingerprint) →
    after key id = rows key id
  kept : ∀ saved ∈ rows.of candidate, ∃ saved' ∈ after.of candidate,
    saved'.attempt = saved.attempt

variable {attempt : DecisionAttempt}

namespace DurableRows

variable {rows after : DurableRows} {cand : FrozenCandidate}

lemma Keeps.refl : rows.Keeps cand rows := ⟨fun _ _ _ => rfl, fun saved h => ⟨saved, h, rfl⟩⟩

lemma of_set (saved : List SavedDecisionAttempt) : (rows.set cand saved).of cand =
    saved := if_pos ⟨rfl, rfl⟩

lemma keeps_set {saved : List SavedDecisionAttempt}
    (hkept : ∀ row ∈ rows.of cand, ∃ row' ∈ saved, row'.attempt = row.attempt) :
    rows.Keeps cand (rows.set cand saved) where
  elsewhere _ _ h := if_neg h
  kept := by
    rw [of_set]
    exact hkept

lemma keeps_append (new : SavedDecisionAttempt) :
    rows.Keeps cand (rows.set cand (rows.of cand ++ [new])) :=
  keeps_set fun row hrow => ⟨row, List.mem_append_left _ hrow, rfl⟩

lemma keeps_settleIntent (attempt : DecisionAttempt) (outcome : DecisionAttemptOutcome) :
    rows.Keeps cand (rows.set cand
      (StoreCheckStore.settleIntent attempt outcome (rows.of cand))) := by
  apply keeps_set
  intro row hrow
  refine ⟨_, List.mem_map_of_mem hrow, ?_⟩
  split_ifs <;> rfl

lemma Keeps.ite {cond : Prop} [Decidable cond] (h : rows.Keeps cand after) :
    rows.Keeps cand (if cond then after else rows) := by
  split_ifs
  · exact h
  · exact .refl

def Has (rows : DurableRows) (key : ScheduleKey) (id : CandidateId) (attempt : DecisionAttempt) :
    Prop := ∃ saved ∈ rows key id, saved.attempt = attempt

lemma Keeps.has (h : rows.Keeps cand after) {key : ScheduleKey} {id : CandidateId} (hhas : rows.Has key id attempt) : after.Has key id attempt := by
  obtain ⟨saved, hsaved, htry⟩ := hhas
  by_cases hsame : key = cand.key ∧ id = cand.fingerprint
  · obtain ⟨rfl, rfl⟩ := hsame
    obtain ⟨saved', hsaved', heq⟩ := h.kept saved hsaved
    exact ⟨saved', hsaved', heq.trans htry⟩
  · refine ⟨saved, ?_, htry⟩
    rw [h.elsewhere key id hsame]
    exact hsaved

lemma has_recovered {key : ScheduleKey} {id : CandidateId}
    (hhas : rows.Has key id attempt) : rows.recovered.Has key id attempt := by
  obtain ⟨saved, hsaved, htry⟩ := hhas
  refine ⟨settleUnknown saved, List.mem_map_of_mem hsaved, ?_⟩
  rw [← htry]
  unfold settleUnknown
  split <;> rfl

end DurableRows

lemma settleIntent_perm {progress saved : List SavedDecisionAttempt}
    (hunsaved : ∀ row ∈ progress, row.attempt ≠ attempt)
    (hperm : (progress ++ [(⟨attempt, .dispatchIntent⟩ : SavedDecisionAttempt)]).Perm saved)
    (outcome : DecisionAttemptOutcome) :
    (progress ++ [(⟨attempt, outcome⟩ : SavedDecisionAttempt)]).Perm
      (StoreCheckStore.settleIntent attempt outcome saved) := by
  have hsett : StoreCheckStore.settleIntent attempt outcome
      (progress ++ [⟨attempt, .dispatchIntent⟩]) = progress ++ [⟨attempt, outcome⟩] := by
    unfold StoreCheckStore.settleIntent Table.update
    rw [List.map_append]
    congr 1
    · rw [List.map_congr_left (g := id) fun row hrow => ?_, List.map_id]
      unfold StoreCheckStore.intentOf
      rw [beq_eq_false_iff_ne.mpr (hunsaved row hrow), Bool.false_and, if_neg Bool.false_ne_true]
      rfl
    · simp [StoreCheckStore.intentOf]
  rw [← hsett]
  exact hperm.map _

/-! ### The next attempt -/

structure Due (decisions : List DecisionBlock) (rows : List SavedDecisionAttempt)
    (attempt : DecisionAttempt) : Prop where
  /-- It has no row yet. -/
  unsaved : ∀ row ∈ rows, row.attempt ≠ attempt
  number : attempt.number = 1 ∨ attempt.number = 2
  /-- A second attempt follows a safe failure. -/
  retried : attempt.number = 2 → ⟨⟨attempt.decision, 1⟩, .safeTransient⟩ ∈ rows
  /-- Every earlier decision is answered. -/
  answered : ∃ before block after, decisions = before ++ block :: after ∧
    block.name = attempt.decision ∧ ∀ earlier ∈ before, ∃ number answer,
      ⟨⟨earlier.name, number⟩, .answer answer⟩ ∈ rows

lemma Due.perm {decisions : List DecisionBlock} {rows rows' : List SavedDecisionAttempt} (h : Due decisions rows attempt) (hperm : rows.Perm rows') :
    Due decisions rows' attempt where
  unsaved row hrow := h.unsaved row (hperm.mem_iff.mpr hrow)
  number := h.number
  retried hnumber := hperm.mem_iff.mp (h.retried hnumber)
  answered := by
    obtain ⟨before, block, after, hdecs, hname, hansd⟩ := h.answered
    refine ⟨before, block, after, hdecs, hname, fun earlier hmem => ?_⟩
    obtain ⟨number, answer, hrow⟩ := hansd earlier hmem
    exact ⟨number, answer, hperm.mem_iff.mp hrow⟩

namespace History

variable {reqs : List QuestionRequirements} {blocks : List DecisionBlock}
  {rows : List SavedDecisionAttempt} {results : List DecisionResult}

lemma mem_answer (decision : String) (retry : Bool) (answer : DecisionResult) :
    (⟨⟨decision, attemptNumber retry⟩, .answer answer⟩ : SavedDecisionAttempt) ∈
      decisionRows decision retry (some (.answer answer)) := by
  rw [decisionRows_some]
  exact List.mem_append_right _ List.mem_cons_self

/-- **The next attempt of a history is due.** -/
lemma due {unfinished : Nat}
    (h : History reqs blocks rows results (some (.next attempt unfinished)))
    (hnames : (blocks.map DecisionBlock.name).Nodup) : Due blocks rows attempt := by
  generalize hstate : some (DecisionProgressState.next attempt unfinished) = state at h
  induction h with
  | complete => cases hstate
  | @answered block rest rows results state retry answer hvalid hattempts hrest ih =>
    rw [List.map_cons, List.nodup_cons] at hnames
    have hdue := ih hnames.2 hstate
    obtain ⟨before, found, after, hdecs, hname, hansd⟩ := hdue.answered
    refine ⟨fun row hrow => ?_, hdue.number, fun hnumber => ?_, ?_⟩
    · -- the rows of an answered decision are those of another one
      rcases List.mem_append.mp hrow with hrow | hrow
      · have hdec : row.attempt.decision = block.name := by
          obtain ⟨saved, outcome⟩ := row
          rcases mem_decisionRows.mp hrow with ⟨rfl, -⟩ | ⟨rfl, -⟩ <;> rfl
        intro heq
        apply hnames.1
        rw [← hdec, heq, ← hname, hdecs]
        exact List.mem_map_of_mem (List.mem_append_right _ List.mem_cons_self)
      · exact hdue.unsaved row hrow
    · exact List.mem_append_right _ (hdue.retried hnumber)
    · refine ⟨block :: before, found, after, by rw [hdecs]; rfl, hname, ?_⟩
      rw [List.forall_mem_cons]
      refine ⟨⟨_, answer, List.mem_append_left _ (mem_answer block.name retry answer)⟩, ?_⟩
      intro earlier hmem
      obtain ⟨number, answer, hrow⟩ := hansd earlier hmem
      exact ⟨number, answer, List.mem_append_right _ hrow⟩
  | @pending block rest retry =>
    cases hstate
    refine ⟨fun row hrow heq => ?_, ?_, fun hnumber => ?_,
      [], block, rest, rfl, rfl, fun _ hmem => absurd hmem List.not_mem_nil⟩
    · obtain ⟨saved, outcome⟩ := row
      have hsaved : saved = ⟨block.name, attemptNumber retry⟩ := heq
      subst hsaved
      cases retry with
      | false => exact absurd hrow List.not_mem_nil
      | true =>
        rcases mem_decisionRows.mp hrow with ⟨hone, -⟩ | ⟨-, hnone⟩
        · cases hone
        · cases hnone
    · cases retry with
      | false => exact .inl rfl
      | true => exact .inr rfl
    · cases retry with
      | false => cases hnumber
      | true => exact mem_decisionRows.mpr (.inl ⟨rfl, rfl⟩)
  | stopped retry terminal hretry => cases hstate

end History

/-- **The next attempt of validated progress is due.** -/
lemma due_of_validate {decls : List DecisionBlock}
    {reqs : List QuestionRequirements} {rows : List SavedDecisionAttempt}
    {attempts unfinished : Nat}
    (h : validateDecisionProgress decls reqs rows =
      .ok ⟨attempts, .next attempt unfinished⟩) : Due decls rows attempt := by
  obtain ⟨rows', results, state, hhistory, hperm, -⟩ := History.of_validate h
  have heq := hhistory.validated_eq ((validateDecisionProgress_perm hperm).trans h)
  obtain ⟨hnames, -⟩ :=
    validateDeclarations_of_validateRequirements (validateRequirements_of_validate h)
  cases state with
  | none => cases heq
  | some state =>
    cases heq
    exact (hhistory.due hnames).perm hperm

def EvaluationTask.Recorded (task : EvaluationTask) (rows : DurableRows) : Prop :=
  match task.phase with
  | .ready run => run.progress.Perm (rows.of task.pending.candidate)
  | .awaiting run attempt => (∀ row ∈ run.progress, row.attempt ≠ attempt) ∧
    (run.progress ++ [(⟨attempt, .dispatchIntent⟩ : SavedDecisionAttempt)]).Perm
      (rows.of task.pending.candidate)
  | _ => True

/-! ### What a stretch writes and sends -/

/-- A candidate and one of its attempts. -/
abbrev Dispatch := ScheduleKey × CandidateId × DecisionAttempt

def EngineEvent.dispatch : EngineEvent → Option Dispatch
  | .sent _ cand attempt => some (cand.key, cand.fingerprint, attempt)
  | _ => none

/-- **What a stretch does to the durable rows**, and what it sends over them. -/
structure EvaluationTask.Writes (task : EvaluationTask) (rows : DurableRows) (step : TaskStep) :
    Prop where
  keeps : rows.Keeps task.pending.candidate step.rows
  next : ∀ next, step.next = some next →
    next.pending.candidate = task.pending.candidate ∧ next.Recorded step.rows
  sends : step.events.filterMap EngineEvent.dispatch = [] ∨
    ∃ attempt, step.events = [.sent task.activation task.pending.candidate attempt] ∧
      Due task.activation.compiled.decisions (rows.of task.pending.candidate) attempt ∧
      ⟨attempt, .dispatchIntent⟩ ∈ step.rows.of task.pending.candidate

variable {events : List EngineEvent}

namespace EvaluationTask

variable {engine : CheckEngine} {task : EvaluationTask} {sched : SchedulerState}
  {rows after : DurableRows}

section

variable (hkeeps : rows.Keeps task.pending.candidate after)
include hkeeps

lemma writes_release (hevents : events.filterMap EngineEvent.dispatch = []) :
    task.Writes rows (task.release sched after events) :=
  ⟨hkeeps, fun _ hnext => (Option.some_ne_none _ hnext.symm).elim, .inl hevents⟩

lemma writes_leave (departure : Departure) :
    task.Writes rows (task.leave sched after departure) :=
  writes_release hkeeps rfl

lemma writes_releaseClaim
    (pending : PendingCandidate) (claimed : ClaimedCandidate) (reply : ClaimReply) :
    task.Writes rows (task.releaseClaim sched after pending claimed reply) := by
  unfold releaseClaim
  split
  · exact writes_release hkeeps rfl
  · exact writes_leave hkeeps .stale
  · exact writes_release hkeeps rfl

end

lemma writes_goOn {phase : TaskPhase} (hkeeps : rows.Keeps task.pending.candidate after)
    (hrec : ({ task with phase } : EvaluationTask).Recorded after) :
    task.Writes rows (task.goOn sched after phase) := by
  refine ⟨hkeeps, fun next hnext => ?_, .inl rfl⟩
  cases hnext
  exact ⟨rfl, hrec⟩

section

variable (hkeeps : rows.Keeps task.pending.candidate after) (run : ModelRun) (cause : HeldCause)
  (released : ClaimReply)
include hkeeps run cause released

lemma writes_dropGuard :
    task.Writes rows (task.dropGuard sched after run cause released) := by
  unfold dropGuard
  split_ifs
  · exact writes_releaseClaim hkeeps _ _ released
  · exact writes_leave hkeeps .answered
  · refine ⟨hkeeps, fun next hnext => ?_, .inl rfl⟩
    cases hnext
    exact ⟨rfl, trivial⟩

lemma writes_ends (result : Except StoreError RunOutcome) :
    task.Writes rows (task.ends sched after run cause released result) := by
  unfold ends
  split
  · exact writes_leave hkeeps _
  · exact writes_dropGuard hkeeps run cause released

end

variable {run : ModelRun}

lemma writes_dispatch (hperm : run.progress.Perm (rows.of task.pending.candidate))
    (hdue : Due task.activation.compiled.decisions run.progress attempt)
    (unfinishedDecisions : Nat) (replies : TurnReplies) : task.Writes rows
      (task.dispatch engine sched rows run attempt unfinishedDecisions replies) := by
  unfold dispatch
  dsimp only
  split
  · exact writes_ends .refl _ _ _ _
  · split
    · exact writes_ends .refl _ _ _ _
    · split
      · refine ⟨DurableRows.keeps_append _, fun next hnext => ?_,
          .inr ⟨attempt, rfl, hdue.perm hperm, ?_⟩⟩
        · cases hnext
          refine ⟨rfl, hdue.unsaved, ?_⟩
          show (run.progress ++ _).Perm (DurableRows.of (rows.set _ _) _)
          rw [DurableRows.of_set]
          exact hperm.append_right _
        · show _ ∈ DurableRows.of (rows.set _ _) _
          rw [DurableRows.of_set]
          exact List.mem_append_right _ List.mem_cons_self
      · exact writes_leave .refl .stale
      · exact writes_dropGuard (DurableRows.keeps_append _).ite _ _ _

lemma writes_turn
    (hperm : run.progress.Perm (rows.of task.pending.candidate)) (replies : TurnReplies) :
    task.Writes rows (task.turn engine sched rows run replies) := by
  unfold turn
  split
  · exact writes_dropGuard .refl _ _ _
  · rename_i validated hvald
    split_ifs
    · exact writes_dropGuard .refl _ _ _
    · obtain ⟨attempts, state⟩ := validated
      dsimp only
      split
      · exact writes_ends .refl _ _ _ _
      · exact writes_ends .refl _ _ _ _
      · exact writes_dispatch hperm (due_of_validate hvald) _ replies

lemma writes_settled (hkeeps : rows.Keeps task.pending.candidate after)
    (hperm : run.progress.Perm (after.of task.pending.candidate)) (replies : SettlementReplies) :
    task.Writes rows (task.settled engine sched after run replies) := by
  unfold settled
  split
  · exact writes_dropGuard hkeeps _ _ _
  · split
    · exact writes_goOn hkeeps hperm
    · exact writes_goOn hkeeps hperm
    · split
      · exact writes_dropGuard hkeeps _ _ _
      · exact writes_ends hkeeps _ _ _ _

lemma writes_settle (hunsaved : ∀ row ∈ run.progress, row.attempt ≠ attempt)
    (hperm : (run.progress ++ [(⟨attempt, .dispatchIntent⟩ : SavedDecisionAttempt)]).Perm
      (rows.of task.pending.candidate)) (replies : SettlementReplies) :
    task.Writes rows (task.settle engine sched rows run attempt replies) := by
  unfold settle
  dsimp only
  split
  · exact writes_dropGuard (DurableRows.keeps_settleIntent attempt _).ite _ _ _
  · exact writes_leave (DurableRows.keeps_settleIntent attempt _) .stale
  · apply writes_settled (DurableRows.keeps_settleIntent attempt _)
    rw [DurableRows.of_set]
    exact settleIntent_perm hunsaved hperm _

lemma writes_start {claimed : ClaimedCandidate} {replies : ModelStartReplies}
    (hloaded : ∀ progress, replies.loaded = .ok progress →
      progress.Perm (rows.of task.pending.candidate)) :
    task.Writes rows (task.startModel engine sched rows claimed replies) := by
  unfold startModel
  split
  · exact writes_releaseClaim .refl _ _ _
  · rename_i progress hprog
    dsimp only
    split
    · split
      · exact writes_leave .refl _
      · exact writes_leave .refl .unrecorded
    · split
      · refine ⟨.refl, fun next hnext => ?_, .inl rfl⟩
        cases hnext
        exact ⟨rfl, hloaded progress hprog⟩
      · exact writes_leave .refl _
      · exact writes_leave .refl .stale
      · exact writes_releaseClaim .refl _ _ _

lemma writes_startLocal (claimed : ClaimedCandidate) (replies : LocalStartReplies) :
    task.Writes rows (task.startLocal engine sched rows claimed replies) := by
  unfold startLocal
  dsimp only
  split
  · split
    · exact writes_release .refl rfl
    · exact writes_leave .refl .stale
    · exact writes_releaseClaim .refl _ _ _
  · split
    · split
      · exact writes_leave .refl _
      · exact writes_releaseClaim .refl _ _ _
    · split
      · exact writes_goOn .refl trivial
      · exact writes_leave .refl .stale
      · exact writes_releaseClaim .refl _ _ _

/-- **Every stretch writes the rows of its own candidate only**, and sends what is due. -/
lemma Recorded.writes {op : TaskOp} {step : TaskStep} (h : task.Recorded rows)
    (hcontr : task.MeetsContract rows op)
    (hstep : task.apply engine sched rows op = some step) : task.Writes rows step := by
  unfold Recorded at h
  cases op with
  | releasePrevious reply =>
    simp only [EvaluationTask.apply] at hstep
    split at hstep
    · cases hstep
      unfold releasePrevious
      split
      · exact writes_goOn .refl trivial
      · split
        · exact writes_release .refl rfl
        · exact writes_goOn .refl trivial
    · cases hstep
  | claimDue reply =>
    simp only [EvaluationTask.apply] at hstep
    split at hstep
    · cases hstep
      cases reply with
      | claimed priorStatus fence => exact writes_goOn .refl trivial
      | notDue retryAtUnixMs => exact writes_release .refl rfl
      | stale => exact writes_leave .refl .stale
      | failed error => exact writes_release .refl rfl
    · cases hstep
  | start replies replies' =>
    simp only [EvaluationTask.apply] at hstep
    split at hstep
    · cases hstep
      split_ifs
      · exact writes_startLocal _ replies
      · exact writes_start hcontr
    · cases hstep
  | runLocal replies =>
    simp only [EvaluationTask.apply] at hstep
    split at hstep
    · cases hstep
      unfold runLocal
      split
      · exact writes_leave .refl _
      · exact writes_leave .refl .answered
    · cases hstep
  | turn replies =>
    simp only [EvaluationTask.apply] at hstep
    split at hstep
    · rename_i run hphase
      cases hstep
      rw [hphase] at h
      exact writes_turn h replies
    · cases hstep
  | settle replies =>
    simp only [EvaluationTask.apply] at hstep
    split at hstep
    · rename_i run attempt hphase
      cases hstep
      rw [hphase] at h
      exact writes_settle h.1 h.2 replies
    · cases hstep
  | drop released =>
    simp only [EvaluationTask.apply, dropped] at hstep
    split at hstep
    · cases hstep
      exact writes_leave .refl .answered
    · cases hstep
      exact writes_dropGuard .refl _ _ released
    · cases hstep
      exact writes_dropGuard .refl _ _ released
    · cases hstep

lemma Recorded.congr (h : task.Recorded rows)
    (heq : after.of task.pending.candidate = rows.of task.pending.candidate) :
    task.Recorded after := by
  unfold Recorded at h ⊢
  rw [heq]
  exact h

end EvaluationTask

/-! ### Runs -/

variable {engine : CheckEngine}

def dispatches (labels : List EngineLabel) : List Dispatch :=
  labels.flatMap fun label => label.events.filterMap EngineEvent.dispatch

structure EngineState.Dispatched (labels : List EngineLabel) (state : EngineState) : Prop where
  booked : state.Booked
  recorded : ∀ task ∈ state.tasks, task.Recorded state.rows
  once : (dispatches labels).Nodup
  saved : ∀ dispatch ∈ dispatches labels,
    state.rows.Has dispatch.1 dispatch.2.1 dispatch.2.2

structure EngineState.Sends (state : EngineState) (events : List EngineEvent)
    (after : EngineState) : Prop where
  kept : ∀ key id attempt, state.rows.Has key id attempt → after.rows.Has key id attempt
  recorded : ∀ task ∈ after.tasks, task.Recorded after.rows
  sends : events.filterMap EngineEvent.dispatch = [] ∨ ∃ activation candidate attempt,
    events = [.sent activation candidate attempt] ∧
      Due activation.compiled.decisions (state.rows.of candidate) attempt ∧
      ⟨attempt, .dispatchIntent⟩ ∈ after.rows.of candidate

namespace EngineState

variable {state after : EngineState}

omit [Platform] in
/-- Candidates that leave their slots send nothing. -/
lemma vacated_dispatch (before after : SchedulerState) (departure : Departure) :
    (before.vacated after departure).filterMap EngineEvent.dispatch = [] := by
  unfold SchedulerState.vacated
  rw [List.filterMap_map, List.filterMap_eq_nil_iff]
  exact fun _ _ => rfl

lemma sends_schedule (h : ∀ task ∈ state.tasks, task.Recorded state.rows)
    (sched : SchedulerState) (departure : Departure)
    (hevents : events.filterMap EngineEvent.dispatch = []) :
    state.Sends (state.schedule sched departure events).2
      (state.schedule sched departure events).1 where
  kept _ _ _ hhas := hhas
  recorded := h
  sends := by
    refine .inl ?_
    show (events ++ _).filterMap EngineEvent.dispatch = []
    rw [List.filterMap_append, hevents, vacated_dispatch]
    rfl

lemma sends_advance (hbooked : state.Booked)
    (hrec : ∀ task ∈ state.tasks, task.Recorded state.rows) {index : Nat}
    {task : EvaluationTask} {step : TaskStep} (htask : state.tasks[index]? = some task)
    (hwrites : task.Writes state.rows step) :
    state.Sends (state.advance index step).2 (state.advance index step).1 := by
  obtain ⟨before, rest, htasks, hset, herase⟩ := List.around_getElem? htask
  have hother : ∀ other ∈ before ++ rest, other.Recorded step.rows := by
    intro other hmem
    have hmem' : other ∈ state.tasks := by
      rw [htasks]
      exact List.mem_around other hmem
    apply (hrec other hmem').congr
    apply hwrites.keeps.elsewhere
    rintro ⟨hkey, -⟩
    -- no two tasks have one key
    have hnodup := hbooked.nodup
    rw [htasks, List.map_append, List.map_cons, List.nodup_middle, ← List.map_append,
      List.nodup_cons] at hnodup
    apply hnodup.1
    rw [← hbooked.own task (List.mem_of_getElem? htask), ← hkey, hbooked.own other hmem']
    exact List.mem_map_of_mem hmem
  refine ⟨fun _ _ _ hhas => hwrites.keeps.has hhas, ?_, ?_⟩
  · intro other hmem
    unfold advance at hmem
    cases hnext : step.next with
    | none =>
      simp only [hnext, herase] at hmem
      exact hother other hmem
    | some next =>
      simp only [hnext, hset next] at hmem
      rcases List.mem_append.mp hmem with hmem | hmem
      · exact hother other (List.mem_append_left _ hmem)
      · rcases List.mem_cons.mp hmem with rfl | hmem
        · exact (hwrites.next other hnext).2
        · exact hother other (List.mem_append_right _ hmem)
  · rcases hwrites.sends with hnone | ⟨attempt, hevents, hdue, hwrit⟩
    · exact .inl hnone
    · exact .inr ⟨task.activation, task.pending.candidate, attempt, hevents, hdue, hwrit⟩

/-- **What a step sends is due**, and its intent is durable behind the step. -/
lemma sends_step {label : EngineLabel} (hbooked : state.Booked)
    (hrec : ∀ task ∈ state.tasks, task.Recorded state.rows)
    (hstep : (checkEngine engine).step state label after) :
    state.Sends label.events after := by
  obtain ⟨hcontr, happly⟩ := hstep
  obtain ⟨op, events⟩ := label
  dsimp only at happly hcontr ⊢
  cases op with
  | enqueue act cand resumed =>
    cases happly
    apply sends_schedule hrec
    split_ifs <;> rfl
  | prune terminal =>
    cases happly
    exact sends_schedule hrec _ .pruned rfl
  | persistActivation definitionId act =>
    cases happly
    exact sends_schedule hrec _ .dropped rfl
  | resetBranches act branches =>
    cases happly
    exact sends_schedule hrec _ .reset rfl
  | reserve act nowUnixMs maximumNewIntents ready =>
    simp only [EngineState.apply] at happly
    split at happly
    · cases happly
      exact ⟨fun _ _ _ hhas => hhas, hrec, .inl rfl⟩
    · cases happly
      refine ⟨fun _ _ _ hhas => hhas, ?_, .inl rfl⟩
      intro task hmem
      rcases List.mem_cons.mp hmem with rfl | hmem
      · trivial
      · exact hrec task hmem
  | task index op =>
    obtain ⟨task, htask, happly⟩ := Option.bind_eq_some_iff.mp happly
    obtain ⟨step, hstep, happly⟩ := Option.map_eq_some_iff.mp happly
    have hwrites := (hrec task (List.mem_of_getElem? htask)).writes
      (hcontr task htask) hstep
    cases happly
    exact sends_advance hbooked hrec htask hwrites
  | restart recovers =>
    cases happly
    refine ⟨fun key id attempt hhas => ?_, fun _ hmem => absurd hmem List.not_mem_nil, .inl ?_⟩
    · show DurableRows.Has (if recovers = true then _ else _) key id attempt
      split_ifs
      · exact DurableRows.has_recovered hhas
      · exact hhas
    · rw [List.filterMap_map, List.filterMap_eq_nil_iff]
      exact fun _ _ => rfl

lemma enqueue_dispatch {act : EffectiveActivation} {cand : FrozenCandidate}
    {resumed : Bool}
    (hstep : (checkEngine engine).step state ⟨.enqueue act cand resumed, events⟩
      after) : events.filterMap EngineEvent.dispatch = [] := by
  obtain ⟨-, happly⟩ := hstep
  have hevents := congrArg Prod.snd (Option.some.inj happly)
  rw [← show _ = events from hevents]
  show List.filterMap EngineEvent.dispatch ((if _ then _ else _) ++ _) = []
  rw [List.filterMap_append, vacated_dispatch]
  split_ifs <;> rfl

lemma Dispatched.step {labels : List EngineLabel} {label : EngineLabel}
    (h : state.Dispatched labels) (hstep : (checkEngine engine).step state label after) :
    after.Dispatched (labels ++ [label]) := by
  obtain ⟨hkept, hrec, hsends⟩ := sends_step h.booked h.recorded hstep
  have hdisp : dispatches (labels ++ [label]) =
      dispatches labels ++ label.events.filterMap EngineEvent.dispatch := by
    unfold dispatches
    rw [List.flatMap_append, List.flatMap_singleton]
  refine ⟨h.booked.step hstep, hrec, ?_, ?_⟩
  · rw [hdisp]
    rcases hsends with hnone | ⟨act, cand, attempt, hevents, hdue, -⟩
    · rw [hnone, List.append_nil]
      exact h.once
    · rw [hevents, List.nodup_append]
      refine ⟨h.once, List.nodup_singleton _, fun dispatch hmem other hother heq => ?_⟩
      obtain ⟨saved, hsaved, htry⟩ := h.saved dispatch hmem
      rw [heq, List.mem_singleton.mp hother] at hsaved htry
      exact hdue.unsaved saved hsaved htry
  · intro dispatch hmem
    rw [hdisp] at hmem
    rcases List.mem_append.mp hmem with hmem | hmem
    · exact hkept _ _ _ (h.saved dispatch hmem)
    · rcases hsends with hnone | ⟨act, cand, attempt, hevents, -, hwrit⟩
      · rw [hnone] at hmem
        exact absurd hmem List.not_mem_nil
      · rw [hevents] at hmem
        rw [List.mem_singleton.mp hmem]
        exact ⟨_, hwrit, rfl⟩

lemma Dispatched.run {labels : List EngineLabel} {rows : DurableRows}
    (hrun : (checkEngine engine).Run (.fresh rows) labels state) : state.Dispatched labels := by
  have hfresh : (EngineState.fresh rows).Dispatched [] :=
    ⟨.fresh rows, fun _ hmem => absurd hmem List.not_mem_nil, .nil,
      fun _ hmem => absurd hmem List.not_mem_nil⟩
  have h := hrun.trace_invariant (I := fun labels state => state.Dispatched labels)
    (P := fun _ => True) (fun _ _ _ _ _ hstep h => h.step hstep) (fun _ _ => trivial) hfresh
  rwa [List.nil_append] at h

end EngineState

/-- **At-most-once dispatch.**  In any run an attempt of a candidate is sent at most
once; a second attempt only behind the safe failure of the first, and any attempt
only once every earlier declared decision has a durable answer. -/
theorem at_most_once_dispatch {labels : List EngineLabel} {rows : DurableRows}
    {state : EngineState} (hrun : (checkEngine engine).Run (.fresh rows) labels state) :
    (dispatches labels).Nodup ∧
      ∀ before label rest middle, labels = before ++ label :: rest →
        (checkEngine engine).Run (.fresh rows) before middle →
        (checkEngine engine).Run middle (label :: rest) state →
        ∀ activation cand attempt, .sent activation cand attempt ∈ label.events →
          Due activation.compiled.decisions (middle.rows.of cand) attempt := by
  refine ⟨(EngineState.Dispatched.run hrun).once, ?_⟩
  intro before label rest middle _ hbefore hrest activation cand attempt hsent
  obtain ⟨after, hstep, -⟩ := hrest.of_cons
  have hmiddle := EngineState.Dispatched.run hbefore
  rcases (EngineState.sends_step hmiddle.booked hmiddle.recorded hstep).sends with
    hnone | ⟨activation', candidate', attempt', hevents, hdue, -⟩
  · rw [List.filterMap_eq_nil_iff] at hnone
    cases hnone _ hsent
  · rw [hevents] at hsent
    cases List.mem_singleton.mp hsent
    exact hdue

def sentReplies : TurnReplies := { unrecordedReplies with intentDurable := true }

lemma EvaluationTask.turn_next {task : EvaluationTask} {sched : SchedulerState}
    {rows : DurableRows} {run : ModelRun} {replies : TurnReplies}
    {unfinished : Nat} (hvald : task.validate engine run.progress =
      .ok ⟨run.attempts, .next attempt unfinished⟩) :
    task.turn engine sched rows run replies =
      task.dispatch engine sched rows run attempt unfinished replies := by
  unfold turn
  rw [hvald]
  dsimp only
  rw [if_neg (not_not.mpr rfl)]

lemma sent_run (sched : SchedulerState)
    (hvald : validateDecisionProgress [triage] [triageRequirements] [] =
      .ok ⟨0, .next ⟨"triage", 1⟩ 1⟩) :
    ∃ events state, (checkEngine replayEngine).Run
      ⟨sched, [claimedTask triageActivation localCandidate], fun _ _ => []⟩
      [⟨.task 0 (.start startedReplies (loadedReplies [])), []⟩,
        ⟨.task 0 (.turn sentReplies), events⟩] state ∧
      events.filterMap EngineEvent.dispatch =
        [(localCandidate.key, localCandidate.fingerprint, ⟨"triage", 1⟩)] := by
  let claimed : ClaimedCandidate := ⟨localCandidate.fingerprint, localCandidate, none, 1⟩
  let run : ModelRun := { claimed, prepared := .null, progress := [], attempts := 0 }
  let task : EvaluationTask := { claimedTask triageActivation localCandidate with
    phase := .ready run }
  let sent : TaskStep := task.dispatch replayEngine sched (fun _ _ => []) run ⟨"triage", 1⟩ 1
    sentReplies
  have hstarted : (checkEngine replayEngine).step
      ⟨sched, [claimedTask triageActivation localCandidate], fun _ _ => []⟩
      ⟨.task 0 (.start startedReplies (loadedReplies [])), []⟩
      ⟨sched, [task], fun _ _ => []⟩ := by
    refine ⟨fun _ _ progress hloaded => ?_, ?_⟩
    · cases hloaded
      exact .nil
    · show ((some ((claimedTask triageActivation localCandidate).startModel replayEngine
        sched (fun _ _ => []) claimed (loadedReplies []))).map
          (EngineState.advance ⟨sched, [claimedTask triageActivation localCandidate],
            fun _ _ => []⟩ 0)) = _
      rw [EvaluationTask.startModel_ready rfl hvald rfl]
      rfl
  have hturned : (checkEngine replayEngine).step ⟨sched, [task], fun _ _ => []⟩
      ⟨.task 0 (.turn sentReplies), sent.events⟩
      (EngineState.advance ⟨sched, [task], fun _ _ => []⟩ 0 sent).1 := by
    refine ⟨fun _ _ => trivial, ?_⟩
    show ((some (task.turn replayEngine sched (fun _ _ => []) run sentReplies)).map
      (EngineState.advance ⟨sched, [task], fun _ _ => []⟩ 0)) = _
    have hnext : task.validate replayEngine run.progress =
        .ok ⟨run.attempts, .next ⟨"triage", 1⟩ 1⟩ := hvald
    rw [EvaluationTask.turn_next hnext]
    rfl
  exact ⟨sent.events, _, .cons hstarted (.single hturned), rfl⟩

end Dispatch

/-- The first attempt of a claimed candidate is sent, once. -/
theorem at_most_once_dispatch_sent : letI := asciiPlatform
    ∃ labels : List EngineLabel, dispatches labels =
        [(localCandidate.key, localCandidate.fingerprint, ⟨"triage", 1⟩)] ∧
      (dispatches labels).Nodup := by
  let platform := asciiPlatform
  obtain ⟨events, sched, hclaimed, -, -, -⟩ :=
    claimed_run triageActivation localCandidate (fun _ _ => [])
      (by decide) (by decide) (by decide)
  have hfits : FitsLimits [] := (measureJson_resultDocument [] 0).mp (by decide)
  have hhistory : History [triageRequirements] [triage] [] [] (some (.next ⟨"triage", 1⟩ 1)) :=
    @History.pending _ _ triage [] false
  obtain ⟨sent, state, hsent, hdispatch⟩ := sent_run sched
    (hhistory.validate (by decide) hfits (List.Perm.refl []))
  obtain ⟨_, hqueued, -⟩ := hclaimed.of_cons
  have hrun := hclaimed.append hsent
  refine ⟨_, ?_, (at_most_once_dispatch hrun).1⟩
  unfold dispatches claimOps
  simp only [List.map_cons, List.map_nil, List.cons_append, List.nil_append, List.flatMap_cons,
    List.flatMap_nil, EngineState.enqueue_dispatch hqueued, hdispatch, List.filterMap_nil,
    List.append_nil]

end Antiburn
