/-
Keys that stay reserved after their task.

A guard keeps its key only from the intent of an attempt to its settlement, or
over terminal progress.  So a key that no task runs under was kept because an
attempt has no confirmed settlement, because its settled progress no longer
validates, or because recording terminal progress failed.
-/
import Antiburn.ProgressRuns
import Antiburn.Reservations

namespace Antiburn

section HeldKeys

variable [Platform] {engine : CheckEngine}

lemma attempts_of_validate {decls : List DecisionBlock}
    {reqs : List QuestionRequirements} {rows : List SavedDecisionAttempt}
    {validated : ValidatedDecisionProgress}
    (h : validateDecisionProgress decls reqs rows = .ok validated) :
    validated.attempts = rows.length := by
  obtain ⟨rows', results, state, hhist, hperm, -⟩ := History.of_validate h
  rw [hhist.validated_eq ((validateDecisionProgress_perm hperm).trans h)]
  exact hperm.length_eq

/-! ### Why a key is kept -/

def EvaluationTask.Explains (engine : CheckEngine) (task : EvaluationTask) : HeldCause → Prop
  | .unsettled _ => True
  | .unrecorded progress =>
    ∃ attempts terminal, task.validate engine progress = .ok ⟨attempts, .terminal terminal⟩
  | .invalid progress => ∃ error, task.validate engine progress = .error error

/-- The guard gives its key back unless it has a reason. -/
def EvaluationTask.Sane (engine : CheckEngine) (task : EvaluationTask) : Prop :=
  match task.phase with
  | .ready run => run.releaseBranchOnDrop = true
  | .awaiting run _ => run.attempts = run.progress.length + 1
  | .held cause => task.Explains engine cause
  | _ => True

namespace EvaluationTask

variable {task : EvaluationTask} {sched : SchedulerState} {rows : DurableRows}

def Leads (engine : CheckEngine) (step : TaskStep) : Prop :=
  ∀ next, step.next = some next → next.Sane engine

lemma leads_release (events : List EngineEvent) :
    Leads engine (task.release sched rows events) := by
  intro next hnext
  have hnone : (task.release sched rows events).next = none := rfl
  rw [hnone] at hnext
  cases hnext

lemma leads_leave (departure : Departure) :
    Leads engine (task.leave sched rows departure) :=
  leads_release [.left task.pending.candidate.slot departure]

lemma leads_releaseClaim (pending : PendingCandidate) (claimed : ClaimedCandidate)
    (reply : ClaimReply) :
    Leads engine (task.releaseClaim sched rows pending claimed reply) := by
  unfold releaseClaim
  split
  · exact leads_release []
  · exact leads_leave .stale
  · exact leads_release []

lemma leads_goOn {phase : TaskPhase} {events : List EngineEvent}
    (h : ({ task with phase } : EvaluationTask).Sane engine) :
    Leads engine (task.goOn sched rows phase events) := by
  intro next hnext
  cases hnext
  exact h

variable {run : ModelRun}

section

variable {cause : HeldCause} (released : ClaimReply)
  (h : run.releaseBranchOnDrop = false → task.Explains engine cause)
include released h

lemma leads_dropGuard :
    Leads engine (task.dropGuard sched rows run cause released) := by
  unfold dropGuard
  split_ifs with hrelease
  · exact leads_releaseClaim _ run.claimed released
  · exact leads_leave .answered
  · intro next hnext
    cases hnext
    have hexpl := h (Bool.eq_false_iff.mpr hrelease)
    unfold Sane
    cases cause with
    | unsettled attempt => trivial
    | unrecorded | invalid => exact hexpl

lemma leads_ends (result : Except StoreError RunOutcome) :
    Leads engine (task.ends sched rows run cause released result) := by
  unfold ends
  split
  · exact leads_leave _
  · exact leads_dropGuard released h

end

lemma leads_terminate {attempts : Nat} {terminal : DecisionProgressTerminal}
    (h : task.validate engine run.progress = .ok ⟨attempts, .terminal terminal⟩)
    (failed released : ClaimReply) :
    Leads engine (task.terminate sched rows run terminal failed released) := by
  have hexpl : task.Explains engine (.unrecorded run.progress) := ⟨attempts, terminal, h⟩
  unfold terminate
  exact leads_ends released (fun _ => hexpl) _

lemma leads_dispatch (hrelease : run.releaseBranchOnDrop = true)
    (htries : run.attempts = run.progress.length) (attempt : DecisionAttempt)
    (unfinishedDecisions : Nat) (replies : TurnReplies) : Leads engine
      (task.dispatch engine sched rows run attempt unfinishedDecisions replies) := by
  have hgives : ∀ cause : HeldCause, run.releaseBranchOnDrop = false →
      task.Explains engine cause := by
    intro cause hfalse
    rw [hrelease] at hfalse
    cases hfalse
  unfold dispatch
  dsimp only
  split
  · exact leads_ends _ (hgives _) _
  · split
    · exact leads_ends _ (hgives _) _
    · split
      · apply leads_goOn
        show run.attempts + 1 = run.progress.length + 1
        rw [htries]
      · exact leads_leave .stale
      · exact leads_dropGuard _ fun _ => trivial

lemma leads_turn (hrelease : run.releaseBranchOnDrop = true)
    (replies : TurnReplies) :
    Leads engine (task.turn engine sched rows run replies) := by
  have hgives : ∀ cause : HeldCause, run.releaseBranchOnDrop = false →
      task.Explains engine cause := by
    intro cause hfalse
    rw [hrelease] at hfalse
    cases hfalse
  unfold turn
  split
  · exact leads_dropGuard _ (hgives _)
  · rename_i validated hvald
    split_ifs with htries
    · exact leads_dropGuard _ (hgives _)
    · rw [ne_eq, not_not] at htries
      obtain ⟨attempts, state⟩ := validated
      dsimp only
      split
      · exact leads_ends _ (fun hfalse => by cases hfalse) _
      · exact leads_terminate hvald _ _
      · exact leads_dispatch hrelease (htries.symm.trans (attempts_of_validate hvald)) _ _
          replies

lemma leads_settled (htries : run.attempts = run.progress.length)
    (replies : SettlementReplies) :
    Leads engine (task.settled engine sched rows run replies) := by
  unfold settled
  split
  · exact leads_dropGuard _ fun _ => ⟨_, ‹_›⟩
  · rename_i settled hsett
    obtain ⟨attempts, state⟩ := settled
    dsimp only
    split
    · exact leads_goOn rfl
    · exact leads_goOn rfl
    · split_ifs with hcount
      · exact absurd ((attempts_of_validate hsett).trans htries.symm) hcount
      · exact leads_terminate hsett _ _

lemma leads_settle (htries : run.attempts = run.progress.length + 1)
    (attempt : DecisionAttempt) (replies : SettlementReplies) :
    Leads engine (task.settle engine sched rows run attempt replies) := by
  unfold settle
  dsimp only
  split
  · exact leads_dropGuard _ fun _ => trivial
  · exact leads_leave .stale
  · apply leads_settled
    rw [List.length_append]
    exact htries

/-- **A stretch leads to a sane task.** -/
lemma Sane.apply {op : TaskOp} {step : TaskStep} (h : task.Sane engine)
    (hstep : task.apply engine sched rows op = some step) : Leads engine step := by
  cases op with
  | releasePrevious reply =>
    simp only [EvaluationTask.apply] at hstep
    split at hstep
    · cases hstep
      unfold releasePrevious
      split
      · exact leads_goOn trivial
      · split
        · exact leads_release []
        · exact leads_goOn trivial
    · cases hstep
  | claimDue reply =>
    simp only [EvaluationTask.apply] at hstep
    split at hstep
    · cases hstep
      cases reply with
      | claimed priorStatus fence => exact leads_goOn trivial
      | notDue retryAtUnixMs => exact leads_release []
      | stale => exact leads_leave .stale
      | failed error => exact leads_release []
    · cases hstep
  | start replies replies' =>
    simp only [EvaluationTask.apply] at hstep
    split at hstep
    · cases hstep
      split_ifs
      · unfold startLocal
        dsimp only
        split
        · split
          · exact leads_release []
          · exact leads_leave .stale
          · exact leads_releaseClaim _ _ _
        · split
          · split
            · exact leads_leave _
            · exact leads_releaseClaim _ _ _
          · split
            · exact leads_goOn trivial
            · exact leads_leave .stale
            · exact leads_releaseClaim _ _ _
      · unfold startModel
        dsimp only
        split
        · exact leads_releaseClaim _ _ _
        · split
          · split
            · exact leads_leave _
            · exact leads_leave .unrecorded
          · split
            · exact leads_goOn rfl
            · exact leads_leave _
            · exact leads_leave .stale
            · exact leads_releaseClaim _ _ _
    · cases hstep
  | runLocal replies =>
    simp only [EvaluationTask.apply] at hstep
    split at hstep
    · cases hstep
      unfold runLocal
      split
      · exact leads_leave _
      · exact leads_leave .answered
    · cases hstep
  | turn replies =>
    simp only [EvaluationTask.apply] at hstep
    split at hstep
    · rename_i run hphase
      cases hstep
      unfold Sane at h
      rw [hphase] at h
      exact leads_turn h replies
    · cases hstep
  | settle replies =>
    simp only [EvaluationTask.apply] at hstep
    split at hstep
    · rename_i run attempt hphase
      cases hstep
      unfold Sane at h
      rw [hphase] at h
      exact leads_settle h attempt replies
    · cases hstep
  | drop released =>
    simp only [EvaluationTask.apply, dropped] at hstep
    split at hstep
    · cases hstep
      exact leads_leave .answered
    · rename_i run hphase
      cases hstep
      unfold Sane at h
      rw [hphase] at h
      dsimp only at h
      exact leads_dropGuard _ fun hfalse => by
        rw [h] at hfalse
        cases hfalse
    · cases hstep
      exact leads_dropGuard _ fun _ => trivial
    · cases hstep

end EvaluationTask

/-! ### Runs -/

lemma sane_step {state after : EngineState} {label : EngineLabel}
    (h : ∀ task ∈ state.tasks, task.Sane engine)
    (hstep : (checkEngine engine).step state label after) :
    ∀ task ∈ after.tasks, task.Sane engine := by
  obtain ⟨-, happly⟩ := hstep
  obtain ⟨op, events⟩ := label
  dsimp only at happly
  cases op with
  | enqueue act cand resumed | prune terminal
  | persistActivation definitionId act | resetBranches act branches =>
    cases happly
    exact h
  | reserve act nowUnixMs maximumNewIntents ready =>
    simp only [EngineState.apply] at happly
    split at happly
    · cases happly
      exact h
    · cases happly
      intro task hmem
      rcases List.mem_cons.mp hmem with rfl | hmem
      · trivial
      · exact h task hmem
  | task index op =>
    obtain ⟨task, htask, happly⟩ := Option.bind_eq_some_iff.mp happly
    obtain ⟨step, hstep, happly⟩ := Option.map_eq_some_iff.mp happly
    have hleads := (h task (List.mem_of_getElem? htask)).apply hstep
    cases happly
    intro other hmem
    cases hnext : step.next with
    | some next =>
      simp only [hnext] at hmem
      rcases List.mem_or_eq_of_mem_set hmem with hmem | rfl
      · exact h other hmem
      · exact hleads other hnext
    | none =>
      simp only [hnext] at hmem
      exact h other (List.mem_of_mem_eraseIdx hmem)
  | restart recovers =>
    cases happly
    exact fun _ hmem => absurd hmem List.not_mem_nil

lemma sane_run {state : EngineState} {labels : List EngineLabel} {rows : DurableRows}
    (hrun : (checkEngine engine).Run (.fresh rows) labels state) :
    ∀ task ∈ state.tasks, task.Sane engine :=
  hrun.invariant (fun _ _ _ hstep h => sane_step h hstep)
    fun _ hmem => absurd hmem List.not_mem_nil

end HeldKeys

end Antiburn
