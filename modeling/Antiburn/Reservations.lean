/-
Counts, reservations and the whereabouts of candidates.

`Booked` says that the reserved keys are exactly those of the tasks that run or
keep their key, one task for each key, and that the running ones are counted.
Every operation keeps it.  A candidate without a window is in its slot or with a
task until the engine reports why it has gone.
-/
import Antiburn.Bookkeeping

namespace Antiburn

section Reservations

variable [Platform] {engine : CheckEngine}

/-! ### Counts and keys -/

structure EngineState.Booked (state : EngineState) : Prop where
  keyed : state.scheduler.Keyed
  own : ∀ task ∈ state.tasks, task.pending.candidate.key = task.key
  nodup : (state.tasks.map EvaluationTask.key).Nodup
  reserved : ∀ key, key ∈ state.scheduler.inFlight ↔ key ∈ state.tasks.map EvaluationTask.key
  counted : state.scheduler.activeCount = state.tasks.countP EvaluationTask.live
  bounded : state.scheduler.activeCount ≤ MAX_IN_FLIGHT_EVALUATIONS

namespace EngineState.Booked

variable {state after : EngineState}

lemma fresh (rows : DurableRows) : (EngineState.fresh rows).Booked where
  keyed key pos pending h := by
    unfold EngineState.fresh SchedulerState.queue at h
    simp at h
  own _ hmem := absurd hmem List.not_mem_nil
  nodup := .nil
  reserved _ := Iff.rfl
  counted := rfl
  bounded := Nat.zero_le _

section

variable (h : state.Booked)
include h

lemma schedule {scheduler : SchedulerState} (hkeyed : scheduler.Keyed)
    (hinFlight : scheduler.inFlight = state.scheduler.inFlight)
    (hactive : scheduler.activeCount = state.scheduler.activeCount) :
    ({ state with scheduler } : EngineState).Booked where
  keyed := hkeyed
  own := h.own
  nodup := h.nodup
  reserved key := by rw [← h.reserved key, ← hinFlight]
  counted := hactive.trans h.counted
  bounded := hactive ▸ h.bounded

variable {key : ScheduleKey}

lemma reserve {pending : PendingCandidate}
    {scheduler : SchedulerState} (hresv : state.scheduler.Reserves key pending scheduler)
    (act : EffectiveActivation) (now limit : Nat) :
    ({ state with
      scheduler
      tasks := ⟨key, pending, act, now, limit, .reserved⟩ :: state.tasks } :
        EngineState).Booked := by
  obtain ⟨pos, hwaits⟩ := hresv.waits
  refine ⟨?_, ?_, ?_, ?_, ?_, ?_⟩
  · apply h.keyed.mono
    intro key' position' pending' h'
    rw [hresv.queues] at h'
    split_ifs at h'
    exact h'
  · intro task hmem
    rcases List.mem_cons.mp hmem with rfl | hmem
    · exact congrArg Prod.fst (h.keyed key pos pending hwaits)
    · exact h.own task hmem
  · rw [List.map_cons, List.nodup_cons, ← h.reserved]
    exact ⟨hresv.free, h.nodup⟩
  · intro key'
    show key' ∈ scheduler.inFlight ↔ key' ∈ key :: state.tasks.map EvaluationTask.key
    rw [hresv.inFlight, List.mem_cons, List.mem_cons, h.reserved]
  · rw [List.countP_cons_of_pos rfl, ← h.counted]
    exact hresv.active
  · show scheduler.activeCount ≤ _
    rw [hresv.active]
    exact hresv.room

lemma continues {index : Nat} {task next : EvaluationTask} {step : TaskStep}
    (htask : state.tasks[index]? = some task) (hlive : task.live = true)
    (hnext : step.next = some next) (hnext_live : next.live = true) (hkey : next.key = task.key)
    (hcand : next.pending.candidate = task.pending.candidate)
    (hbooks : state.scheduler.SameBooks step.scheduler) : (state.advance index step).1.Booked := by
  obtain ⟨before, rest, htasks, hset, -⟩ := List.around_getElem? htask
  unfold EngineState.advance
  rw [hnext]
  dsimp only
  rw [hset next]
  obtain ⟨hkeyed, hown, hnodup, hreser, hcntd, hbound⟩ := h
  rw [htasks] at hown hnodup hreser hcntd
  have hkeys : (before ++ next :: rest).map EvaluationTask.key =
      (before ++ task :: rest).map EvaluationTask.key := by
    simp only [List.map_append, List.map_cons, hkey]
  refine ⟨?_, ?_, ?_, ?_, ?_, ?_⟩
  · apply hkeyed.mono
    intro key pos pending h
    rw [SchedulerState.queue_eq hbooks.pending] at h
    exact h
  · refine List.forall_around ?_ hown
    rw [hcand, hkey]
    exact hown task (List.mem_append_right _ List.mem_cons_self)
  · rw [hkeys]
    exact hnodup
  · intro key
    rw [hkeys, ← hreser key]
    show key ∈ step.scheduler.inFlight ↔ _
    rw [hbooks.inFlight]
  · show step.scheduler.activeCount = _
    rw [hbooks.active, hcntd, List.countP_append, List.countP_append,
      List.countP_cons_of_pos hlive, List.countP_cons_of_pos hnext_live]
  · show step.scheduler.activeCount ≤ _
    rw [hbooks.active]
    exact hbound

section

variable {index : Nat} {task : EvaluationTask} {step : TaskStep}

lemma held {cause : HeldCause} (htask : state.tasks[index]? = some task) (hlive : task.live = true)
    (hnext : step.next = some { task with phase := .held cause })
    (hsched : step.scheduler = state.scheduler.abandon) :
    (state.advance index step).1.Booked := by
  obtain ⟨before, rest, htasks, hset, -⟩ := List.around_getElem? htask
  unfold EngineState.advance
  rw [hnext, hsched]
  dsimp only
  rw [hset]
  obtain ⟨hkeyed, hown, hnodup, hreser, hcntd, hbound⟩ := h
  rw [htasks] at hown hnodup hreser hcntd
  have hkeys : (before ++ { task with phase := .held cause } :: rest).map EvaluationTask.key =
      (before ++ task :: rest).map EvaluationTask.key := by
    simp only [List.map_append, List.map_cons]
  refine ⟨hkeyed, ?_, hkeys ▸ hnodup, fun key => hkeys ▸ hreser key, ?_, ?_⟩
  · exact List.forall_around (hown task (List.mem_append_right _ List.mem_cons_self)) hown
  · show state.scheduler.activeCount - 1 = _
    rw [hcntd, List.countP_append, List.countP_append, List.countP_cons_of_pos hlive,
      List.countP_cons_of_neg Bool.false_ne_true]
    omega
  · show state.scheduler.activeCount - 1 ≤ _
    exact Nat.le_trans (Nat.sub_le _ _) hbound

lemma finished (htask : state.tasks[index]? = some task) (hlive : task.live = true)
    (hnext : step.next = none) (hkeyed : step.scheduler.Keyed)
    (hinFlight : step.scheduler.inFlight = (state.scheduler.finish task.key).inFlight)
    (hactive : step.scheduler.activeCount = (state.scheduler.finish task.key).activeCount) :
    (state.advance index step).1.Booked := by
  obtain ⟨before, rest, htasks, -, herase⟩ := List.around_getElem? htask
  unfold EngineState.advance
  rw [hnext]
  dsimp only
  rw [herase]
  obtain ⟨-, hown, hnodup, hreser, hcntd, hbound⟩ := h
  rw [htasks] at hown hnodup hreser hcntd
  have hperm : ((before ++ task :: rest).map EvaluationTask.key).Perm
      (task.key :: (before ++ rest).map EvaluationTask.key) := by
    rw [← List.map_cons]
    exact (List.perm_middle).map _
  have hsplit := hperm.nodup_iff.mp hnodup
  rw [List.nodup_cons] at hsplit
  refine ⟨hkeyed, ?_, hsplit.2, ?_, ?_, ?_⟩
  · exact fun other hmem => hown other (List.mem_around other hmem)
  · intro key
    show key ∈ step.scheduler.inFlight ↔ _
    rw [hinFlight]
    show key ∈ state.scheduler.inFlight.filter (· != task.key) ↔ _
    rw [List.mem_filter, bne_iff_ne, hreser key, hperm.mem_iff, List.mem_cons]
    constructor
    · rintro ⟨heq | hmem, hne⟩
      · exact absurd heq hne
      · exact hmem
    · intro hmem
      exact ⟨.inr hmem, fun heq => hsplit.1 (heq ▸ hmem)⟩
  · show step.scheduler.activeCount = _
    rw [hactive]
    show state.scheduler.activeCount - 1 = _
    rw [hcntd, List.countP_append, List.countP_append, List.countP_cons_of_pos hlive]
    omega
  · show step.scheduler.activeCount ≤ _
    rw [hactive]
    exact Nat.le_trans (Nat.sub_le _ _) hbound

lemma advance (htask : state.tasks[index]? = some task) (hlive : task.live = true)
    (hcase : TaskCase task state.scheduler step) : (state.advance index step).1.Booked := by
  have hown := h.own task (List.mem_of_getElem? htask)
  cases hcase with
  | continues next hnext hnext_live hkey hcand hcompl hbooks =>
    exact h.continues htask hlive hnext hnext_live hkey hcand hbooks
  | held cause hnext hsched => exact h.held htask hlive hnext hsched
  | restored pending hcand hcompl hnext hinFlight hactive hpend =>
    refine h.finished htask hlive hnext ?_ hinFlight hactive
    intro key pos found hfound
    rw [SchedulerState.queue_eq hpend] at hfound
    rcases SchedulerState.restorePending_entries hfound with hfound | ⟨rfl, rfl, rfl⟩
    · exact h.keyed key pos found hfound
    · unfold FrozenCandidate.slot
      rw [hcand, hown]
  | left departure hdepar hnext hinFlight hactive hpend hevents =>
    refine h.finished htask hlive hnext ?_ hinFlight hactive
    apply h.keyed.mono
    intro key pos pending hfound
    rw [SchedulerState.queue_eq hpend] at hfound
    exact hfound

end

end

variable {label : EngineLabel}

/-- **Every operation keeps the books.** -/
lemma step (h : state.Booked)
    (hstep : (checkEngine engine).step state label after) : after.Booked := by
  obtain ⟨-, happly⟩ := hstep
  obtain ⟨op, events⟩ := label
  dsimp only at happly
  cases op with
  | enqueue act cand resumed =>
    cases happly
    obtain ⟨hinFlight, hactive⟩ :=
      state.scheduler.enqueueWithResume_inFlight act cand resumed
    refine h.schedule ?_ hinFlight hactive
    intro key pos pending hpend
    rcases SchedulerState.enqueueWithResume_entries hpend with
      ⟨pending', hpend', hcand, -⟩ | ⟨hslot, rfl⟩
    · rw [hcand]
      exact h.keyed key pos pending' hpend'
    · exact hslot.symm
  | prune terminal =>
    cases happly
    exact h.schedule (h.keyed.mono (SchedulerState.pruneTerminal_sub terminal)) rfl rfl
  | persistActivation definitionId act | resetBranches act branches =>
    cases happly
    exact h.schedule (h.keyed.mono (SchedulerState.filterKeys_sub _)) rfl rfl
  | reserve act nowUnixMs maximumNewIntents ready =>
    simp only [EngineState.apply] at happly
    split at happly
    · cases happly
      exact h
    · cases happly
      exact h.reserve (SchedulerState.reserve_some ‹_›) act nowUnixMs maximumNewIntents
  | task index op =>
    obtain ⟨task, htask, happly⟩ := Option.bind_eq_some_iff.mp happly
    obtain ⟨step, hstep, happly⟩ := Option.map_eq_some_iff.mp happly
    obtain ⟨hcase, hlive⟩ := task.apply_case engine state.scheduler state.rows hstep
    have hafter := h.advance htask hlive hcase
    rw [happly] at hafter
    exact hafter
  | restart recovers =>
    cases happly
    exact fresh _

lemma run {labels : List EngineLabel} {rows : DurableRows}
    (hrun : (checkEngine engine).Run (.fresh rows) labels state) : state.Booked :=
  hrun.invariant (fun _ _ _ hstep h => h.step hstep) (fresh rows)

end EngineState.Booked

/-! ### Whereabouts -/

def EngineState.Located (state : EngineState) (slot : ScheduleSlot) : Prop :=
  state.scheduler.holds slot = true ∨ ∃ task ∈ state.tasks, task.pending.candidate.slot = slot

structure EngineState.Windowless (key : ScheduleKey) (state : EngineState) : Prop where
  queued : ∀ (position : ObservationPosition) (pending : PendingCandidate),
    (state.scheduler.queue key)[position]? = some pending →
      pending.compiled.trigger.window = none
  tasks : ∀ task ∈ state.tasks, task.key = key → task.pending.compiled.trigger.window = none

def EngineOp.Windowless (key : ScheduleKey) : EngineOp → Prop
  | enqueue act cand _ =>
    cand.key = key → act.compiled.trigger.window = none
  | restart _ => False
  | _ => True

omit [Platform] in
lemma SchedulerState.mem_slots {state : SchedulerState} {slot : ScheduleSlot}
    (h : state.holds slot = true) : slot ∈ state.slots := by
  rw [SchedulerState.holds_iff] at h
  obtain ⟨pending, hpend⟩ := h
  unfold SchedulerState.queue at hpend
  cases hqueue : state.pending[slot.1]? with
  | none =>
    rw [hqueue] at hpend
    simp at hpend
  | some queue =>
    rw [hqueue] at hpend
    unfold SchedulerState.slots
    refine List.mem_flatMap.mpr ⟨(slot.1, queue),
      Std.ExtTreeMap.mem_toList_iff_getElem?_eq_some.mpr hqueue, ?_⟩
    exact List.mem_map.mpr ⟨(slot.2, pending),
      Std.ExtTreeMap.mem_toList_iff_getElem?_eq_some.mpr hpend, rfl⟩

omit [Platform] in
lemma SchedulerState.mem_vacated {before after : SchedulerState} {slot : ScheduleSlot}
    (hbefore : before.holds slot = true) (hafter : after.holds slot = false)
    (departure : Departure) : .left slot departure ∈ before.vacated after departure := by
  unfold vacated
  refine List.mem_map.mpr ⟨slot, List.mem_filter.mpr ⟨mem_slots hbefore, ?_⟩, rfl⟩
  rw [hafter]
  rfl

def Departure.accounted : Departure → Bool
  | coalesced | restarted => false
  | _ => true

omit [Platform] in
lemma Departure.accounted_of_ofTask {departure : Departure} (h : departure.ofTask = true) :
    departure.accounted = true := by
  cases departure <;> first | rfl | cases h

namespace EngineState

variable {state after : EngineState} {slot : ScheduleSlot}

lemma Located.schedule (h : state.Located slot) (scheduler : SchedulerState)
    (departure : Departure) (events : List EngineEvent) :
    (state.schedule scheduler departure events).1.Located slot ∨
      .left slot departure ∈ (state.schedule scheduler departure events).2 := by
  rcases h with hwaits | htask
  · cases hafter : scheduler.holds slot with
    | true => exact .inl (.inl hafter)
    | false =>
      exact .inr (List.mem_append_right _ (SchedulerState.mem_vacated hwaits hafter departure))
  · exact .inl (.inr htask)

variable {scheduler : SchedulerState}

variable {resumed : Bool} {act : EffectiveActivation} {cand : FrozenCandidate}

omit [Platform] in
lemma holds_enqueue
    (hwindow : cand.key = slot.1 → act.compiled.trigger.window = none)
    (h : scheduler.holds slot = true) :
    (scheduler.enqueueWithResume act cand resumed).2.holds slot = true := by
  rw [SchedulerState.holds_iff] at h ⊢
  obtain ⟨pending, hpend⟩ := h
  obtain ⟨hcase, hothers⟩ := scheduler.enqueueWithResume_cases act cand resumed
  by_cases hkey : slot.1 = cand.key
  · rw [hkey] at hpend ⊢
    generalize (scheduler.enqueueWithResume act cand resumed).2.queue cand.key =
      queue' at hcase ⊢
    generalize (scheduler.enqueueWithResume act cand resumed).1 = outcome at hcase
    have hinsert : ∀ new : PendingCandidate, ∃ pending,
        ((scheduler.queue cand.key).insert cand.triggerPosition new)[slot.2]? =
          some pending := by
      intro new
      rw [Std.ExtTreeMap.lookup_insert]
      split_ifs
      · exact ⟨new, rfl⟩
      · exact ⟨pending, hpend⟩
    cases hcase with
    | occupied => exact hinsert _
    | overflow | later => exact ⟨pending, hpend⟩
    | replaced hpos hresumed hwind =>
      rw [hwindow hkey.symm] at hwind
      cases hwind
    | added => exact hinsert _
  · rw [hothers slot.1 hkey]
    exact ⟨pending, hpend⟩

lemma located_queued
    {events : List EngineEvent}
    (hstep : (checkEngine engine).step state ⟨.enqueue act cand resumed, events⟩ after)
    (hqueued : .queued cand ∈ events) : after.Located cand.slot := by
  obtain ⟨-, happly⟩ := hstep
  cases happly
  left
  rw [SchedulerState.holds_iff]
  obtain ⟨hcase, -⟩ := state.scheduler.enqueueWithResume_cases act cand resumed
  have hout : (state.scheduler.enqueueWithResume act cand resumed).1 = .queued := by
    rcases List.mem_append.mp hqueued with hmem | hmem
    · split_ifs at hmem with hout
      · exact hout
      · cases hmem
    · obtain ⟨_, -, heq⟩ := List.mem_map.mp hmem
      cases heq
  show ∃ pending, ((state.scheduler.enqueueWithResume act cand resumed).2.queue
    cand.key)[cand.triggerPosition]? = some pending
  rw [hout] at hcase
  generalize (state.scheduler.enqueueWithResume act cand resumed).2.queue
    cand.key = queue' at hcase ⊢
  cases hcase with
  | occupied | added =>
    rw [Std.ExtTreeMap.lookup_insert, if_pos rfl]
    exact ⟨_, rfl⟩

lemma Located.reserve (hbooked : state.Booked) (h : state.Located slot)
    {pending : PendingCandidate}
    (hresv : state.scheduler.Reserves key pending scheduler) (act : EffectiveActivation)
    (now limit : Nat) : ({ state with
      scheduler
      tasks := ⟨key, pending, act, now, limit, .reserved⟩ :: state.tasks } :
        EngineState).Located slot := by
  rcases h with hwaits | ⟨task, hmem, hslot⟩
  · rw [SchedulerState.holds_iff] at hwaits
    obtain ⟨found, hfound⟩ := hwaits
    obtain ⟨pos, hpos⟩ := hresv.waits
    have hkeyed := hbooked.keyed key pos pending hpos
    by_cases hsame : slot.1 = key ∧ slot.2 = pending.candidate.triggerPosition
    · refine .inr ⟨_, List.mem_cons_self, ?_⟩
      show pending.candidate.slot = slot
      have hkey : pending.candidate.key = key := congrArg Prod.fst hkeyed
      unfold FrozenCandidate.slot
      rw [hkey, ← hsame.1, ← hsame.2]
    · refine .inl (SchedulerState.holds_iff.mpr ⟨found, ?_⟩)
      rw [hresv.queues, if_neg hsame]
      exact hfound
  · exact .inr ⟨task, List.mem_cons_of_mem _ hmem, hslot⟩

lemma Located.advance (hbooked : state.Booked) (hwindow : state.Windowless slot.1)
    (h : state.Located slot) {index : Nat} {task : EvaluationTask} {step : TaskStep}
    (htask : state.tasks[index]? = some task) (hcase : TaskCase task state.scheduler step) :
    (state.advance index step).1.Located slot ∨
      ∃ departure : Departure, departure.accounted = true ∧ .left slot departure ∈ step.events := by
  obtain ⟨before, rest, htasks, hset, herase⟩ := List.around_getElem? htask
  have hmem : task ∈ state.tasks := List.mem_of_getElem? htask
  have hown := hbooked.own task hmem
  unfold EngineState.advance EngineState.Located
  -- the tasks around this one stay
  have hother : ∀ {tasks : List EvaluationTask},
      (∀ other ∈ before ++ rest, other ∈ tasks) →
      (∃ other ∈ state.tasks, other.pending.candidate.slot = slot) →
      task.pending.candidate.slot = slot ∨
        ∃ other ∈ tasks, other.pending.candidate.slot = slot := by
    rintro tasks hkept ⟨other, hmem, hslot⟩
    rw [htasks] at hmem
    rcases List.mem_append.mp hmem with hmem | hmem
    · exact .inr ⟨other, hkept other (List.mem_append_left _ hmem), hslot⟩
    · rcases List.mem_cons.mp hmem with rfl | hmem
      · exact .inl hslot
      · exact .inr ⟨other, hkept other (List.mem_append_right _ hmem), hslot⟩
  have hgrow : ∀ {next : EvaluationTask}, ∀ other ∈ before ++ rest,
      other ∈ before ++ next :: rest := List.mem_around
  cases hcase with
  | continues next hnext hnext_live hkey hcand hcompl hbooks =>
    rw [hnext]
    dsimp only
    rw [hset next]
    refine .inl (h.imp (fun hwaits => ?_) fun htasks => ?_)
    · rw [SchedulerState.holds, SchedulerState.queue_eq hbooks.pending]
      exact hwaits
    · rcases hother hgrow htasks with hslot | hslot
      · exact ⟨next, List.mem_append_right _ List.mem_cons_self, by rw [hcand]; exact hslot⟩
      · exact hslot
  | held cause hnext hsched =>
    rw [hnext, hsched]
    dsimp only
    rw [hset]
    refine .inl (h.imp id fun htasks => ?_)
    rcases hother hgrow htasks with hslot | hslot
    · exact ⟨_, List.mem_append_right _ List.mem_cons_self, hslot⟩
    · exact hslot
  | restored pending hcand hcompl hnext hinFlight hactive hpend =>
    rw [hnext]
    dsimp only
    rw [herase]
    have hholds : ∀ {slot : ScheduleSlot},
        (state.scheduler.restorePending task.key pending).holds slot = true →
          step.scheduler.holds slot = true := by
      intro slot h
      rw [SchedulerState.holds, SchedulerState.queue_eq hpend]
      exact h
    rcases h with hwaits | htasks
    · exact .inl (.inl (hholds (SchedulerState.holds_restorePending hwaits)))
    · rcases hother (fun _ hmem => hmem) htasks with hslot | hslot
      · -- the restored candidate has no window, so it waits again
        refine .inl (.inl (hholds ?_))
        have hkey : task.key = slot.1 := by rw [← hown, ← hslot]; rfl
        have hrest : (state.scheduler.restorePending task.key pending).holds
            (task.key, pending.candidate.triggerPosition) = true :=
          SchedulerState.holds_restored (hcompl ▸ hwindow.tasks task hmem hkey)
        rw [hcand] at hrest
        have hsame : (task.key, task.pending.candidate.triggerPosition) = slot := by
          rw [← hown, ← hslot]
          rfl
        rw [hsame] at hrest
        exact hrest
      · exact .inl (.inr hslot)
  | left departure hdepar hnext hinFlight hactive hpend hevents =>
    rw [hnext]
    dsimp only
    rw [herase]
    rcases h with hwaits | htasks
    · refine .inl (.inl ?_)
      rw [SchedulerState.holds, SchedulerState.queue_eq hpend]
      exact hwaits
    · rcases hother (fun _ hmem => hmem) htasks with hslot | hslot
      · exact .inr ⟨departure, Departure.accounted_of_ofTask hdepar, hslot ▸ hevents⟩
      · exact .inl (.inr hslot)

/-- **Every operation leaves a candidate without a window where it is, or reports
why it has gone.** -/
lemma Located.step (hbooked : state.Booked)
    (hwindow : state.Windowless slot.1) (hop : label.op.Windowless slot.1)
    (hstep : (checkEngine engine).step state label after) (h : state.Located slot) :
    after.Located slot ∨
      ∃ departure : Departure, departure.accounted = true ∧
        .left slot departure ∈ label.events := by
  obtain ⟨-, happly⟩ := hstep
  obtain ⟨op, events⟩ := label
  dsimp only at happly hop
  have hrepor : ∀ departure : Departure, departure.accounted = true →
      (after.Located slot ∨ .left slot departure ∈ events) →
      after.Located slot ∨ ∃ departure : Departure, departure.accounted = true ∧
        .left slot departure ∈ events :=
    fun departure hdepar => Or.imp_right fun hmem => ⟨departure, hdepar, hmem⟩
  cases op with
  | enqueue act cand resumed =>
    cases happly
    exact .inl (h.imp (holds_enqueue hop) id)
  | prune terminal =>
    cases happly
    exact hrepor .pruned rfl (h.schedule _ _ [])
  | persistActivation definitionId act =>
    cases happly
    exact hrepor .dropped rfl (h.schedule _ _ [])
  | resetBranches act branches =>
    cases happly
    exact hrepor .reset rfl (h.schedule _ _ [])
  | reserve act nowUnixMs maximumNewIntents ready =>
    simp only [EngineState.apply] at happly
    split at happly
    · cases happly
      exact .inl h
    · cases happly
      exact .inl (h.reserve hbooked (SchedulerState.reserve_some ‹_›) act nowUnixMs
        maximumNewIntents)
  | task index op =>
    obtain ⟨task, htask, happly⟩ := Option.bind_eq_some_iff.mp happly
    obtain ⟨step, hstep, happly⟩ := Option.map_eq_some_iff.mp happly
    obtain ⟨hcase, -⟩ := task.apply_case engine state.scheduler state.rows hstep
    have hafter := h.advance hbooked hwindow htask hcase
    cases happly
    exact hafter
  | restart recovers => cases hop

lemma Windowless.schedule (h : state.Windowless key)
    (hsub : ∀ (pos : ObservationPosition) (pending : PendingCandidate),
      (scheduler.queue key)[pos]? = some pending →
        (state.scheduler.queue key)[pos]? = some pending) :
    ({ state with scheduler } : EngineState).Windowless key where
  queued pos pending hpend := h.queued pos pending (hsub pos pending hpend)
  tasks := h.tasks

lemma Windowless.advance (h : state.Windowless key) {index : Nat}
    {task : EvaluationTask} {step : TaskStep} (htask : state.tasks[index]? = some task)
    (hcase : TaskCase task state.scheduler step) :
    (state.advance index step).1.Windowless key := by
  have hmem : task ∈ state.tasks := List.mem_of_getElem? htask
  -- the task that goes on has the check it had
  have htasks : ∀ next, step.next = some next → next.key = task.key →
      next.pending.compiled = task.pending.compiled → ∀ other ∈ state.tasks.set index next,
        other.key = key → other.pending.compiled.trigger.window = none := by
    intro next _ hkey hcompl other hother hother_key
    rcases List.mem_or_eq_of_mem_set hother with hother | rfl
    · exact h.tasks other hother hother_key
    · rw [hcompl]
      exact h.tasks task hmem (hkey.symm.trans hother_key)
  have herased : ∀ other ∈ state.tasks.eraseIdx index, other.key = key →
      other.pending.compiled.trigger.window = none :=
    fun other hother => h.tasks other (List.mem_of_mem_eraseIdx hother)
  have hkept : step.scheduler.pending = state.scheduler.pending →
      ∀ (pos : ObservationPosition) (pending : PendingCandidate),
        (step.scheduler.queue key)[pos]? = some pending →
          pending.compiled.trigger.window = none := by
    intro hpend pos pending hfound
    rw [SchedulerState.queue_eq hpend] at hfound
    exact h.queued pos pending hfound
  unfold EngineState.advance
  cases hcase with
  | continues next hnext hlive hkey hcand hcompl hbooks =>
    rw [hnext]
    exact ⟨hkept hbooks.pending, htasks next hnext hkey hcompl⟩
  | held cause hnext hsched =>
    rw [hnext]
    exact ⟨hkept (by rw [hsched]; rfl), htasks _ hnext rfl rfl⟩
  | restored pending hcand hcompl hnext hinFlight hactive hpend =>
    rw [hnext]
    refine ⟨fun pos found hfound => ?_, herased⟩
    rw [SchedulerState.queue_eq hpend] at hfound
    rcases SchedulerState.restorePending_entries hfound with hfound | ⟨hkey, -, rfl⟩
    · exact h.queued pos found hfound
    · rw [hcompl]
      exact h.tasks task hmem hkey.symm
  | left departure hdepar hnext hinFlight hactive hpend hevents =>
    rw [hnext]
    exact ⟨hkept hpend, herased⟩

/-- **No operation brings a window under a key whose check has none.** -/
lemma Windowless.step (h : state.Windowless key)
    (hop : label.op.Windowless key) (hstep : (checkEngine engine).step state label after) :
    after.Windowless key := by
  obtain ⟨-, happly⟩ := hstep
  obtain ⟨op, events⟩ := label
  dsimp only at happly hop
  cases op with
  | enqueue act cand resumed =>
    cases happly
    refine ⟨fun pos pending hpend => ?_, h.tasks⟩
    rcases SchedulerState.enqueueWithResume_entries hpend with
      ⟨pending', hpend', -, hcompl⟩ | ⟨hslot, rfl⟩
    · rw [hcompl]
      exact h.queued pos pending' hpend'
    · exact hop (congrArg Prod.fst hslot).symm
  | prune terminal =>
    cases happly
    exact h.schedule (SchedulerState.pruneTerminal_sub terminal key)
  | persistActivation definitionId act | resetBranches act branches =>
    cases happly
    exact h.schedule (SchedulerState.filterKeys_sub _ key)
  | reserve act nowUnixMs maximumNewIntents ready =>
    simp only [EngineState.apply] at happly
    split at happly
    · cases happly
      exact h
    · cases happly
      have hresv := SchedulerState.reserve_some ‹_›
      obtain ⟨pos, hwaits⟩ := hresv.waits
      refine ⟨fun position' pending' hpend => ?_, fun other hother hkey => ?_⟩
      · rw [hresv.queues] at hpend
        split_ifs at hpend
        exact h.queued position' pending' hpend
      · rcases List.mem_cons.mp hother with rfl | hother
        · dsimp only at hkey
          rw [hkey] at hwaits
          exact h.queued pos _ hwaits
        · exact h.tasks other hother hkey
  | task index op =>
    obtain ⟨task, htask, happly⟩ := Option.bind_eq_some_iff.mp happly
    obtain ⟨step, hstep, happly⟩ := Option.map_eq_some_iff.mp happly
    have hafter := h.advance htask (task.apply_case engine state.scheduler state.rows hstep).1
    rw [happly] at hafter
    exact hafter
  | restart recovers => cases hop

end EngineState

end Reservations

end Antiburn
