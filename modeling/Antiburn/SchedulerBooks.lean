/-
Scheduler bookkeeping under every interleaving.

The counts, the reservations and the whereabouts of candidates, over all runs.
Two designs of the engine show here: a task that ends over terminal progress keeps
its key although its attempts are settled, and a candidate whose complete answer
is durable leaves the scheduler without any outcome until recovery finds it.
-/
import Antiburn.CandidateSafety
import Antiburn.HeldKeys

namespace Antiburn

section SchedulerBooks

variable [Platform] {engine : CheckEngine}

def EngineState.liveTasks (state : EngineState) : List EvaluationTask :=
  state.tasks.filter EvaluationTask.live

/-- The books at one time. -/
structure EngineState.Accounts (engine : CheckEngine) (state : EngineState) : Prop where
  active : state.scheduler.activeCount = state.liveTasks.length
  bounded : state.scheduler.activeCount ≤ MAX_IN_FLIGHT_EVALUATIONS
  exclusive : (state.liveTasks.map EvaluationTask.key).Nodup
  /-- A key without a live task was kept for a reason. -/
  explained : ∀ key ∈ state.scheduler.inFlight, (∃ task ∈ state.liveTasks, task.key = key) ∨
    ∃ task ∈ state.tasks, task.key = key ∧
      ∃ cause, task.phase = .held cause ∧ task.Explains engine cause

/-- The candidate of a slot waits there, one task has it, or an operation reported
why it has gone. -/
def EngineState.Whereabouts (state : EngineState) (labels : List EngineLabel)
    (slot : ScheduleSlot) : Prop :=
  state.scheduler.holds slot = true ∨
    (∃ task ∈ state.tasks, task.pending.candidate.slot = slot ∧
      ∀ other ∈ state.tasks, other.pending.candidate.slot = slot → other = task) ∨
    ∃ label ∈ labels, ∃ departure : Departure, departure.accounted = true ∧
      .left slot departure ∈ label.events

lemma EngineState.Booked.accounts {state : EngineState} (h : state.Booked)
    (hsane : ∀ task ∈ state.tasks, task.Sane engine) : state.Accounts engine where
  active := by
    rw [h.counted, List.countP_eq_length_filter]
    rfl
  bounded := h.bounded
  exclusive := h.nodup.sublist (List.Sublist.map _ List.filter_sublist)
  explained key hmem := by
    obtain ⟨task, htask, rfl⟩ := List.mem_map.mp ((h.reserved key).mp hmem)
    cases hlive : task.live with
    | true => exact .inl ⟨task, List.mem_filter.mpr ⟨htask, hlive⟩, rfl⟩
    | false =>
      refine .inr ⟨task, htask, rfl, ?_⟩
      have hexpl := hsane task htask
      unfold EvaluationTask.live at hlive
      unfold EvaluationTask.Sane at hexpl
      cases hphase : task.phase with
      | held cause =>
        rw [hphase] at hexpl
        exact ⟨cause, rfl, hexpl⟩
      | _ =>
        rw [hphase] at hlive
        cases hlive

lemma EngineState.Located.run {state after : EngineState} {labels : List EngineLabel}
    {slot : ScheduleSlot} (hbooked : state.Booked) (hwindow : state.Windowless slot.1)
    (hops : ∀ label ∈ labels, label.op.Windowless slot.1)
    (hrun : (checkEngine engine).Run state labels after) (h : state.Located slot) :
    after.Located slot ∨ ∃ label ∈ labels, ∃ departure : Departure,
      departure.accounted = true ∧ .left slot departure ∈ label.events := by
  induction hrun with
  | nil => exact .inl h
  | @cons state label middle labels after hstep _ ih =>
    obtain ⟨hop, hrest⟩ := List.forall_mem_cons.mp hops
    rcases h.step hbooked hwindow hop hstep with hlocated | ⟨departure, haccounted, hmem⟩
    · rcases ih (hbooked.step hstep) (hwindow.step hop hstep) hrest hlocated with
        hlocated | ⟨label', hmem, hleft⟩
      · exact .inl hlocated
      · exact .inr ⟨label', List.mem_cons_of_mem _ hmem, hleft⟩
    · exact .inr ⟨label, List.mem_cons_self, departure, haccounted, hmem⟩

lemma EngineState.Located.whereabouts {state : EngineState} (hbooked : state.Booked)
    {slot : ScheduleSlot} (h : state.Located slot) (labels : List EngineLabel) :
    state.Whereabouts labels slot := by
  rcases h with hwaits | ⟨task, hmem, hslot⟩
  · exact .inl hwaits
  · refine .inr (.inl ⟨task, hmem, hslot, fun other hother hother_slot => ?_⟩)
    apply List.inj_on_of_nodup_map hbooked.nodup hother hmem
    rw [← hbooked.own task hmem, ← hbooked.own other hother]
    exact congrArg Prod.fst (hother_slot.trans hslot.symm)

/-- **Scheduler bookkeeping.**  At any time of any run the counts and reservations
hold, and a candidate without a window that was queued is accounted for. -/
theorem scheduler_bookkeeping {labels : List EngineLabel} {rows : DurableRows}
    {state : EngineState} (hrun : (checkEngine engine).Run (.fresh rows) labels state) :
    state.Accounts engine ∧
      ∀ before activation candidate resumed events rest,
        labels = before ++ ⟨.enqueue activation candidate resumed, events⟩ :: rest →
        (∀ label ∈ labels, label.op.Windowless candidate.key) →
        .queued candidate ∈ events → state.Whereabouts rest candidate.slot := by
  have hbooked := EngineState.Booked.run hrun
  refine ⟨hbooked.accounts (sane_run hrun), ?_⟩
  intro before activation candidate resumed events rest hsplit hops hqueued
  rw [hsplit] at hrun hops
  obtain ⟨start, hbefore, hrun⟩ := hrun.of_append
  obtain ⟨queued, hstep, hrest⟩ := hrun.of_cons
  -- no window had come under the key, and none comes
  have hfresh : (EngineState.fresh rows).Windowless candidate.key := by
    refine ⟨fun position pending hpending => ?_, fun _ hmem => absurd hmem List.not_mem_nil⟩
    unfold EngineState.fresh SchedulerState.queue at hpending
    simp at hpending
  have hwindow : start.Windowless candidate.key :=
    hbefore.invariant_of (P := fun label => label.op.Windowless candidate.key)
      (fun _ _ _ hop hstep h => h.step hop hstep)
      (fun label hmem => hops label (List.mem_append_left _ hmem)) hfresh
  have hstart := EngineState.Booked.run hbefore
  have hop := hops _ (List.mem_append_right _ List.mem_cons_self)
  have hlocated := EngineState.located_queued hstep hqueued
  rcases hlocated.run (hstart.step hstep) (hwindow.step hop hstep)
      (fun label hmem => hops label (List.mem_append_right _ (List.mem_cons_of_mem _ hmem)))
      hrest with hlocated | hleft
  · exact hlocated.whereabouts hbooked rest
  · exact .inr (.inr hleft)

end SchedulerBooks

/-! ### Departures that are not listed -/

section Runs

variable [Platform]

omit [Platform] in
lemma SchedulerState.reserve_single {state : SchedulerState} {policy : ExecutionPolicy}
    {act : ActivationId} {now : Nat} {ready : BranchId → Bool} {key : ScheduleKey}
    {position : ObservationPosition} {pending : PendingCandidate}
    (hroom : state.activeCount < MAX_IN_FLIGHT_EVALUATIONS)
    (hdue : state.dueKeys policy act now ready = [key])
    (hkeys : (state.queue key).keys = [position])
    (hpending : (state.queue key)[position]? = some pending) :
    ∃ after, state.reserve policy act now ready = (some (key, pending), after) ∧
      after.pendingReleases = state.pendingReleases := by
  have hmax : (state.queue key).maxKey? = some position := by
    rw [Std.ExtTreeMap.maxKey?_eq_getLast?_keys, hkeys]
    rfl
  have hmin : (state.queue key).minKey? = some position := by
    rw [Std.ExtTreeMap.minKey?_eq_head?_keys, hkeys]
    rfl
  have hnext : state.nextKey policy [key] = some key := by
    unfold nextKey newest
    simp only [List.filterMap_cons, List.filterMap_nil, hmax, Option.map_some]
    split_ifs <;> rfl
  have hfirst : (state.queue key).first? = some (position, pending) := by
    unfold PendingQueue.first?
    rw [hmin, Option.bind_some, hpending]
    rfl
  unfold reserve
  rw [if_neg (Nat.not_le.mpr hroom), hdue]
  simp only [hnext, hfirst, Option.bind_some, Option.map_some]
  exact ⟨_, rfl, rfl⟩

def replayEngine : CheckEngine where
  policy := .sequentialReplay
  questionRequirements _ := [triageRequirements]
  boundedFailure := id

def claimOps (activation : EffectiveActivation) : List EngineOp :=
  [.reserve activation 0 1 fun _ => true, .task 0 (.releasePrevious (.ok .current)),
    .task 0 (.claimDue (.claimed none 1))]

def claimedTask (activation : EffectiveActivation) (candidate : FrozenCandidate) : EvaluationTask :=
  ⟨candidate.key, ⟨candidate, activation.compiled, false⟩, activation, 0, 1,
    .claimed ⟨candidate.fingerprint, candidate, none, 1⟩⟩

lemma claimed_run (act : EffectiveActivation) (cand : FrozenCandidate)
    (rows : DurableRows)
    (hdue : (({} : SchedulerState).enqueueWithResume act cand false).2.dueKeys
      .sequentialReplay act.id 0 (fun _ => true) = [cand.key])
    (hkeys : ((({} : SchedulerState).enqueueWithResume act cand false).2.queue
      cand.key).keys = [cand.triggerPosition])
    (hqueued : (({} : SchedulerState).enqueueWithResume act cand false).1 = .queued) :
    ∃ events sched, (checkEngine replayEngine).Run (.fresh rows)
        (⟨.enqueue act cand false, events⟩ ::
          (claimOps act).map (⟨·, []⟩))
        ⟨sched, [claimedTask act cand], rows⟩ ∧
      .queued cand ∈ events ∧ (∀ slot, sched.holds slot = false) ∧
      sched.inFlight = [cand.key] := by
  let enqueued := (({} : SchedulerState).enqueueWithResume act cand false).2
  obtain ⟨hinFlight, hactive⟩ :=
    ({} : SchedulerState).enqueueWithResume_inFlight act cand false
  -- the candidate is the only entry
  have hents : ∀ (key : ScheduleKey) (position : ObservationPosition)
      (pending : PendingCandidate), (enqueued.queue key)[position]? = some pending →
        (key, position) = cand.slot ∧ pending = ⟨cand, act.compiled, false⟩ := by
    intro key position pending hpending
    rcases SchedulerState.enqueueWithResume_entries hpending with ⟨_, hnone, -⟩ | hnew
    · unfold SchedulerState.queue at hnone
      simp at hnone
    · exact hnew
  obtain ⟨pending, hpending⟩ : ∃ pending,
      (enqueued.queue cand.key)[cand.triggerPosition]? = some pending := by
    rw [← Option.isSome_iff_exists, ← Std.ExtTreeMap.mem_iff_isSome_getElem?,
      ← Std.ExtTreeMap.mem_keys, hkeys]
    exact List.mem_cons_self
  obtain ⟨-, rfl⟩ := hents _ _ _ hpending
  obtain ⟨sched, hreserve, hreleases⟩ := SchedulerState.reserve_single
    (by rw [hactive]; decide) hdue hkeys hpending
  have hresv := SchedulerState.reserve_some hreserve
  have hnone : sched.pendingReleases[cand.key]? = none := by
    have hempty : enqueued.pendingReleases = ∅ := by
      show (({} : SchedulerState).enqueueWithResume act cand false).2.pendingReleases = ∅
      unfold SchedulerState.enqueueWithResume
      dsimp only
      split
      · rfl
      · split_ifs <;> rfl
    rw [hreleases, hempty]
    simp
  let events : List EngineEvent := .queued cand ::
    ({} : SchedulerState).vacated enqueued .coalesced
  let task (phase : TaskPhase) : EvaluationTask := { claimedTask act cand with phase }
  have henqueue : (checkEngine replayEngine).step (.fresh rows)
      ⟨.enqueue act cand false, events⟩ ⟨enqueued, [], rows⟩ := by
    refine ⟨trivial, ?_⟩
    show some (EngineState.schedule (.fresh rows) enqueued .coalesced
      (if (({} : SchedulerState).enqueueWithResume act cand false).1 = .queued then _
        else _)) = _
    rw [hqueued]
    rfl
  have hreserved : (checkEngine replayEngine).step ⟨enqueued, [], rows⟩
      ⟨.reserve act 0 1 fun _ => true, []⟩ ⟨sched, [task .reserved], rows⟩ := by
    refine ⟨trivial, ?_⟩
    simp only [EngineState.apply]
    rw [show enqueued.reserve replayEngine.policy act.id 0 (fun _ => true) = _
      from hreserve]
    rfl
  have hrel : (checkEngine replayEngine).step ⟨sched, [task .reserved], rows⟩
      ⟨.task 0 (.releasePrevious (.ok .current)), []⟩ ⟨sched, [task .claiming], rows⟩ := by
    refine ⟨fun _ _ => trivial, ?_⟩
    show ((some ((task .reserved).releasePrevious sched rows (.ok .current))).map
      (EngineState.advance ⟨sched, [task .reserved], rows⟩ 0)) = _
    unfold EvaluationTask.releasePrevious
    rw [show sched.pendingReleases[(task .reserved).key]? = none from hnone]
    rfl
  have hclaimed : (checkEngine replayEngine).step ⟨sched, [task .claiming], rows⟩
      ⟨.task 0 (.claimDue (.claimed none 1)), []⟩
      ⟨sched, [claimedTask act cand], rows⟩ := ⟨fun _ _ => trivial, rfl⟩
  refine ⟨events, sched, .cons henqueue (.cons hreserved (.cons hrel (.cons hclaimed
    (.nil _)))), List.mem_cons_self, fun slot => ?_, ?_⟩
  · -- the one entry is with the task
    cases hholds : sched.holds slot with
    | false => rfl
    | true =>
      obtain ⟨pending, hfound⟩ := SchedulerState.holds_iff.mp hholds
      rw [hresv.queues] at hfound
      split_ifs at hfound with hslot
      obtain ⟨hsame, -⟩ := hents _ _ _ hfound
      exact absurd ⟨congrArg Prod.fst hsame, congrArg Prod.snd hsame⟩ hslot
  · rw [hresv.inFlight, hinFlight]

namespace EvaluationTask

variable {engine : CheckEngine} {task : EvaluationTask} {sched : SchedulerState}
  {rows : DurableRows}

lemma startModel_ready {claimed : ClaimedCandidate} {replies : ModelStartReplies}
    {progress : List SavedDecisionAttempt} {validated : ValidatedDecisionProgress} {prepared : Json}
    (hloaded : replies.loaded = .ok progress)
    (hvald : validateDecisionProgress task.pending.compiled.decisions
      (engine.questionRequirements task.pending.compiled) progress = .ok validated)
    (hprepared : engine.prepareClaimed replies.preparation validated.attempts
      validated.state.isComplete = .ok (.ready prepared)) :
    task.startModel engine sched rows claimed replies =
      ({ task with pending := { task.pending with
        resumed := task.pending.resumed || decide (0 < validated.attempts) } } :
          EvaluationTask).goOn sched rows
        (.ready { claimed, prepared, progress, attempts := validated.attempts }) := by
  unfold startModel
  rw [hloaded]
  dsimp only
  rw [hvald]
  dsimp only
  rw [hprepared]

lemma turn_terminal {run : ModelRun} {replies : TurnReplies} {terminal : DecisionProgressTerminal}
    (hvald : task.validate engine run.progress = .ok ⟨run.attempts, .terminal terminal⟩) :
    task.turn engine sched rows run replies =
      task.terminate sched rows run terminal replies.failed replies.released := by
  unfold turn
  rw [hvald]
  dsimp only
  rw [if_neg (not_not.mpr rfl)]

end EvaluationTask

def startedReplies : LocalStartReplies where
  executionCurrent := true
  released := .ok .current
  rejected := .ok .current
  started := .ok .current
  restored := .ok .current

def loadedReplies (progress : List SavedDecisionAttempt) : ModelStartReplies where
  loaded := .ok progress
  failed := .ok .current
  preparation :=
    { loaded := .ok (some (.ready .null))
      prepared := .ready .null
      recorded := .ok .current
      validated := fun _ => .ok ()
      rejected := .ok .current }
  restored := .ok .current

def unrecordedReplies : TurnReplies where
  publication := ⟨.ok (), .ok .current, .ok (), .ok .current, .ok .accepted⟩
  failed := .error ⟨"unavailable"⟩
  limited := .ok .current
  validated := .ok ()
  rejected := .ok .current
  intent := .ok .current
  intentDurable := false
  released := .ok .current

def triageActivation : EffectiveActivation :=
  { localActivation.toEffectiveActivation with
    compiled := { localActivation.compiled with decisions := [triage] } }

def permanentRows : List SavedDecisionAttempt := [⟨⟨"triage", 1⟩, .permanent⟩]

/-- The task behind a start over saved progress. -/
def resumedTask (phase : TaskPhase) : EvaluationTask :=
  { claimedTask triageActivation localCandidate with
    pending := ⟨localCandidate, triageActivation.compiled, true⟩
    phase }

lemma held_run (sched : SchedulerState)
    (hvald : validateDecisionProgress [triage] [triageRequirements] permanentRows =
      .ok ⟨1, .terminal .permanent⟩) :
    (checkEngine replayEngine).Run
      ⟨sched, [claimedTask triageActivation localCandidate], fun _ _ => permanentRows⟩
      [⟨.task 0 (.start startedReplies (loadedReplies permanentRows)), []⟩,
        ⟨.task 0 (.turn unrecordedReplies), []⟩]
      ⟨sched.abandon, [resumedTask (.held (.unrecorded permanentRows))],
        fun _ _ => permanentRows⟩ := by
  let claimed : ClaimedCandidate := ⟨localCandidate.fingerprint, localCandidate, none, 1⟩
  let run : ModelRun := { claimed, prepared := .null, progress := permanentRows, attempts := 1 }
  have hstarted : (checkEngine replayEngine).step
      ⟨sched, [claimedTask triageActivation localCandidate], fun _ _ => permanentRows⟩
      ⟨.task 0 (.start startedReplies (loadedReplies permanentRows)), []⟩
      ⟨sched, [resumedTask (.ready run)], fun _ _ => permanentRows⟩ := by
    refine ⟨fun _ _ progress hloaded => ?_, ?_⟩
    · cases hloaded
      exact List.Perm.refl permanentRows
    · show ((some ((claimedTask triageActivation localCandidate).startModel replayEngine
        sched (fun _ _ => permanentRows) claimed (loadedReplies permanentRows))).map
          (EngineState.advance ⟨sched, [claimedTask triageActivation localCandidate],
            fun _ _ => permanentRows⟩ 0)) = _
      rw [EvaluationTask.startModel_ready rfl hvald rfl]
      rfl
  have hturned : (checkEngine replayEngine).step
      ⟨sched, [resumedTask (.ready run)], fun _ _ => permanentRows⟩
      ⟨.task 0 (.turn unrecordedReplies), []⟩
      ⟨sched.abandon, [resumedTask (.held (.unrecorded permanentRows))],
        fun _ _ => permanentRows⟩ := by
    refine ⟨fun _ _ => trivial, ?_⟩
    show ((some ((resumedTask (.ready run)).turn replayEngine sched
      (fun _ _ => permanentRows) run unrecordedReplies)).map
        (EngineState.advance ⟨sched, [resumedTask (.ready run)],
          fun _ _ => permanentRows⟩ 0)) = _
    have hterm : (resumedTask (.ready run)).validate replayEngine run.progress =
        .ok ⟨run.attempts, .terminal .permanent⟩ := hvald
    rw [EvaluationTask.turn_terminal hterm]
    rfl
  exact .cons hstarted (.single hturned)

def Departure.listed : Departure → Bool
  | settled | stale | pruned | dropped | reset => true
  | _ => false

end Runs

/-- A local task that is dropped before it is polled leaves its candidate nowhere,
and over terminal progress a key stays reserved although its attempt is settled. -/
theorem not_scheduler_bookkeeping : letI := asciiPlatform
    (∃ before activation candidate events rest state, state.tasks = [] ∧
      (checkEngine replayEngine).Run (.fresh fun _ _ => [])
        (before ++ ⟨.enqueue activation candidate false, events⟩ :: rest) state ∧
      (∀ label ∈ before ++ ⟨.enqueue activation candidate false, events⟩ :: rest,
        label.op.Windowless candidate.key) ∧ .queued candidate ∈ events ∧
      state.scheduler.holds candidate.slot = false ∧
      ∀ label ∈ rest, ∀ departure : Departure, departure.listed = true →
        .left candidate.slot departure ∉ label.events) ∧
    ∃ rows labels state task, (checkEngine replayEngine).Run (.fresh rows) labels state ∧
      state.tasks = [task] ∧ task.live = false ∧ task.key ∈ state.scheduler.inFlight ∧
      (∀ attempt, task.phase ≠ .held (.unsettled attempt)) ∧
      rows task.key task.pending.candidate.fingerprint = [⟨⟨"triage", 1⟩, .permanent⟩] := by
  let platform := asciiPlatform
  constructor
  · obtain ⟨events, sched, hrun, hqueued, hholds, -⟩ :=
      claimed_run localActivation.toEffectiveActivation localCandidate (fun _ _ => [])
        (by decide) (by decide) (by decide)
    let task (phase : TaskPhase) : EvaluationTask :=
      { claimedTask localActivation.toEffectiveActivation localCandidate with phase }
    let claimed : ClaimedCandidate := ⟨localCandidate.fingerprint, localCandidate, none, 1⟩
    let started := sched.markStarted .sequentialReplay localCandidate.key 0 0
    have hstarted : (checkEngine replayEngine).step
        ⟨sched, [task (.claimed claimed)], fun _ _ => []⟩
        ⟨.task 0 (.start startedReplies (loadedReplies [])), []⟩
        ⟨started, [task (.localWork claimed)], fun _ _ => []⟩ := by
      refine ⟨fun _ _ progress hloaded => ?_, rfl⟩
      cases hloaded
      exact .nil
    have hdropped : (checkEngine replayEngine).step
        ⟨started, [task (.localWork claimed)], fun _ _ => []⟩
        ⟨.task 0 (.drop (.ok .current)), [.left localCandidate.slot .answered]⟩
        ⟨started.finish localCandidate.key, [], fun _ _ => []⟩ := ⟨fun _ _ => trivial, rfl⟩
    let rest : List EngineLabel :=
      (claimOps localActivation.toEffectiveActivation).map (⟨·, []⟩) ++
        [⟨.task 0 (.start startedReplies (loadedReplies [])), []⟩,
          ⟨.task 0 (.drop (.ok .current)), [.left localCandidate.slot .answered]⟩]
    refine ⟨[], localActivation.toEffectiveActivation, localCandidate, events, rest,
      ⟨started.finish localCandidate.key, [], fun _ _ => []⟩, rfl,
      hrun.append (.cons hstarted (.single hdropped)), ?_, hqueued, ?_, ?_⟩
    · intro label hmem
      simp only [rest, claimOps, List.nil_append, List.map_cons, List.map_nil, List.cons_append,
        List.mem_cons, List.not_mem_nil, or_false] at hmem
      rcases hmem with rfl | rfl | rfl | rfl | rfl | rfl
      · exact fun _ => rfl
      all_goals trivial
    · have hbooks := sched.sameBooks_markStarted localCandidate.key .sequentialReplay 0 0
      show started.holds localCandidate.slot = false
      rw [SchedulerState.holds, SchedulerState.queue_eq hbooks.pending]
      exact hholds localCandidate.slot
    · intro label hmem departure hlisted
      simp only [rest, claimOps, List.map_cons, List.map_nil, List.cons_append, List.nil_append,
        List.mem_cons, List.not_mem_nil, or_false] at hmem
      rcases hmem with rfl | rfl | rfl | rfl | rfl
      · exact List.not_mem_nil
      · exact List.not_mem_nil
      · exact List.not_mem_nil
      · exact List.not_mem_nil
      · intro hleft
        cases List.mem_singleton.mp hleft
        cases hlisted
  · obtain ⟨events, sched, hrun, -, -, hinFlight⟩ :=
      claimed_run triageActivation localCandidate (fun _ _ => permanentRows)
        (by decide) (by decide) (by decide)
    have hrequirements : validateRequirements [triage] [triageRequirements] = .ok () := by
      decide
    have hfits : FitsLimits permanentRows :=
      (measureJson_resultDocument [] 1).mp (by decide)
    have hhistory : History [triageRequirements] [triage] permanentRows []
        (some (.terminal .permanent)) := @History.stopped _ _ triage [] false .permanent nofun
    have hheld := held_run sched
      (hhistory.validate hrequirements hfits (List.Perm.refl permanentRows))
    refine ⟨fun _ _ => permanentRows, _, _, resumedTask (.held (.unrecorded permanentRows)),
      hrun.append hheld, rfl, rfl, ?_, nofun, rfl⟩
    show localCandidate.key ∈ sched.inFlight
    rw [hinFlight]
    exact List.mem_cons_self

/-- A claimed candidate is with its task. -/
theorem scheduler_bookkeeping_claimed : letI := asciiPlatform
    ∃ (state : EngineState) (rest : List EngineLabel),
      state.tasks = [claimedTask localActivation.toEffectiveActivation localCandidate] ∧
      state.Accounts replayEngine ∧ state.Whereabouts rest localCandidate.slot := by
  let platform := asciiPlatform
  obtain ⟨events, sched, hrun, hqueued, -, -⟩ :=
    claimed_run localActivation.toEffectiveActivation localCandidate (fun _ _ => [])
      (by decide) (by decide) (by decide)
  obtain ⟨haccounts, hwhereabouts⟩ := scheduler_bookkeeping hrun
  refine ⟨_, _, rfl, haccounts,
    hwhereabouts [] _ localCandidate false events _ rfl (fun label hmem => ?_) hqueued⟩
  simp only [claimOps, List.map_cons, List.map_nil, List.mem_cons, List.not_mem_nil,
    or_false] at hmem
  rcases hmem with rfl | rfl | rfl | rfl
  · exact fun _ => rfl
  all_goals trivial

end Antiburn
