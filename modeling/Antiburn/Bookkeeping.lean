/-
The books of the scheduler under every interleaving.

Every stretch of an evaluation goes on, keeps the key for good, or gives it back
with the candidate restored or reported gone (`TaskCase`).  From that one case
analysis follow the counts, the reservations and the whereabouts of candidates.
-/
import Antiburn.EngineRuns

namespace Antiburn

/-! ### What lock sections leave alone -/

namespace SchedulerState

/-- Reservations and queues agree; tickets, cooldowns and held releases may differ. -/
structure SameBooks (before after : SchedulerState) : Prop where
  inFlight : after.inFlight = before.inFlight
  active : after.activeCount = before.activeCount
  pending : after.pending = before.pending

variable (state : SchedulerState) (key : ScheduleKey)

lemma SameBooks.refl : SameBooks state state := ⟨rfl, rfl, rfl⟩

lemma sameBooks_clearRelease : SameBooks state (state.clearRelease key) := ⟨rfl, rfl, rfl⟩

lemma sameBooks_clearTicketIfIdle : SameBooks state (state.clearTicketIfIdle key) := by
  unfold clearTicketIfIdle
  split_ifs
  · exact ⟨rfl, rfl, rfl⟩
  · exact .refl state

lemma sameBooks_markStarted (policy : ExecutionPolicy) (now cooldown : Nat) :
    SameBooks state (state.markStarted policy key now cooldown) := by
  unfold markStarted
  dsimp only
  split_ifs <;> exact ⟨rfl, rfl, rfl⟩

lemma restorePending_inFlight (pending : PendingCandidate) :
    (state.restorePending key pending).inFlight = state.inFlight := by
  unfold restorePending
  dsimp only
  split_ifs <;> rfl

lemma restorePending_active (pending : PendingCandidate) :
    (state.restorePending key pending).activeCount = state.activeCount := by
  unfold restorePending
  dsimp only
  split_ifs <;> rfl

lemma restorePending_pending {before after : SchedulerState}
    (h : after.pending = before.pending) (pending : PendingCandidate) :
    (after.restorePending key pending).pending = (before.restorePending key pending).pending := by
  have hqueue : after.queue key = before.queue key := by
    unfold queue
    rw [h]
  unfold restorePending
  dsimp only
  rw [hqueue]
  split_ifs
  · exact h
  · show after.pending.insert key _ = before.pending.insert key _
    rw [h]

end SchedulerState

/-! ### Queues -/

namespace SchedulerState

variable {state after : SchedulerState}

/-- Every candidate waits in its own slot. -/
def Keyed (state : SchedulerState) : Prop :=
  ∀ (key : ScheduleKey) (position : ObservationPosition) (pending : PendingCandidate),
    (state.queue key)[position]? = some pending → pending.candidate.slot = (key, position)

lemma holds_iff {slot : ScheduleSlot} : state.holds slot = true ↔
    ∃ pending, (state.queue slot.1)[slot.2]? = some pending := by
  rw [holds, Std.ExtTreeMap.contains_eq_isSome_getElem?, Option.isSome_iff_exists]

lemma Keyed.mono (h : state.Keyed)
    (hsub : ∀ (key : ScheduleKey) (pos : ObservationPosition) (pending : PendingCandidate),
      (after.queue key)[pos]? = some pending →
        (state.queue key)[pos]? = some pending) : after.Keyed :=
  fun key pos pending hpending => h key pos pending (hsub key pos pending hpending)

lemma queue_eq (h : after.pending = state.pending) (key : ScheduleKey) :
    after.queue key = state.queue key := by
  unfold queue
  rw [h]

lemma pruneTerminal_sub (terminal : List CandidateId) (key : ScheduleKey)
    (pos : ObservationPosition) (pending : PendingCandidate)
    (h : ((state.pruneTerminal terminal).queue key)[pos]? = some pending) :
    (state.queue key)[pos]? = some pending := by
  unfold pruneTerminal queue at h
  unfold queue
  simp only [Std.ExtTreeMap.getElem?_filter', Std.ExtTreeMap.lookup_map] at h
  cases hqueue : state.pending[key]? with
  | none =>
    rw [hqueue] at h
    exact h
  | some queue =>
    rw [hqueue] at h
    simp only [Option.map_some, Option.filter_some] at h
    split_ifs at h
    · rw [Option.getD_some, Std.ExtTreeMap.getElem?_filter', Option.filter_eq_some_iff] at h
      exact h.1
    · simp at h

lemma filterKeys_sub (keeps : ScheduleKey → Bool) (key : ScheduleKey)
    (pos : ObservationPosition) (pending : PendingCandidate)
    (h : (({ state with pending := state.pending.filter fun key _ => keeps key } :
      SchedulerState).queue key)[pos]? = some pending) :
    (state.queue key)[pos]? = some pending := by
  rw [queue_filter] at h
  split_ifs at h
  · exact h
  · simp at h

lemma enqueueWithResume_inFlight (act : EffectiveActivation)
    (cand : FrozenCandidate) (resumed : Bool) :
    (state.enqueueWithResume act cand resumed).2.inFlight = state.inFlight ∧
      (state.enqueueWithResume act cand resumed).2.activeCount =
        state.activeCount := by
  unfold enqueueWithResume
  dsimp only
  split
  · exact ⟨rfl, rfl⟩
  · split_ifs <;> exact ⟨rfl, rfl⟩

variable {pending restored : PendingCandidate} {key : ScheduleKey}

lemma enqueueWithResume_entries {act : EffectiveActivation} {cand : FrozenCandidate}
    {resumed : Bool} {pos : ObservationPosition}
    (h : ((state.enqueueWithResume act cand resumed).2.queue key)[pos]? =
      some pending) :
    (∃ pending', (state.queue key)[pos]? = some pending' ∧
      pending.candidate = pending'.candidate ∧ pending.compiled = pending'.compiled) ∨
    (key, pos) = cand.slot ∧ pending = ⟨cand, act.compiled, resumed⟩ := by
  obtain ⟨hcase, hothers⟩ := state.enqueueWithResume_cases act cand resumed
  by_cases hkey : key = cand.key
  · subst hkey
    generalize (state.enqueueWithResume act cand resumed).2.queue cand.key =
      queue' at h hcase
    generalize (state.enqueueWithResume act cand resumed).1 = outcome at hcase
    cases hcase with
    | occupied hpos =>
      rw [Std.ExtTreeMap.lookup_insert] at h
      split_ifs at h with heq
      · cases h
        subst heq
        exact .inl ⟨_, hpos, rfl, rfl⟩
      · exact .inl ⟨pending, h, rfl, rfl⟩
    | overflow | later => exact .inl ⟨pending, h, rfl, rfl⟩
    | replaced =>
      rw [Std.ExtTreeMap.lookup_insert] at h
      split_ifs at h with heq
      · cases h
        subst heq
        exact .inr ⟨rfl, rfl⟩
      · rw [Std.ExtTreeMap.getElem?_filter', Option.filter_eq_some_iff] at h
        exact .inl ⟨pending, h.1, rfl, rfl⟩
    | added =>
      rw [Std.ExtTreeMap.lookup_insert] at h
      split_ifs at h with heq
      · cases h
        subst heq
        exact .inr ⟨rfl, rfl⟩
      · exact .inl ⟨pending, h, rfl, rfl⟩
  · rw [hothers key hkey] at h
    exact .inl ⟨pending, h, rfl, rfl⟩

lemma restorePending_entries {key' : ScheduleKey} {pos : ObservationPosition}
    (h : ((state.restorePending key restored).queue key')[pos]? = some pending) :
    (state.queue key')[pos]? = some pending ∨
      key' = key ∧ pos = restored.candidate.triggerPosition ∧ pending = restored := by
  unfold restorePending at h
  dsimp only at h
  split_ifs at h
  · exact .inl h
  · rw [queue_insert] at h
    split_ifs at h with hkey
    · rw [Std.ExtTreeMap.getElem?_insertIfNew] at h
      split_ifs at h with hnew
      · cases h
        exact .inr ⟨hkey.symm, (Std.LawfulEqOrd.eq_of_compare hnew.1).symm, rfl⟩
      · rw [← hkey]
        exact .inl h
    · exact .inl h

lemma holds_restorePending {slot : ScheduleSlot}
    (h : state.holds slot = true) : (state.restorePending key restored).holds slot = true := by
  rw [holds_iff] at h ⊢
  obtain ⟨pending, hpending⟩ := h
  unfold restorePending
  dsimp only
  split_ifs
  · exact ⟨pending, hpending⟩
  · rw [queue_insert]
    split_ifs with hkey
    · subst hkey
      rw [Std.ExtTreeMap.getElem?_insertIfNew]
      split_ifs
      · exact ⟨_, rfl⟩
      · exact ⟨pending, hpending⟩
    · exact ⟨pending, hpending⟩

lemma holds_restored
    (hwindow : restored.compiled.trigger.window = none) :
    (state.restorePending key restored).holds (key, restored.candidate.triggerPosition) = true := by
  rw [holds_iff]
  unfold restorePending
  dsimp only
  rw [hwindow, Option.isSome_none, Bool.and_false, Bool.false_and, if_neg Bool.false_ne_true,
    queue_insert, if_pos rfl, Std.ExtTreeMap.getElem?_insertIfNew]
  split_ifs with hnew
  · exact ⟨_, rfl⟩
  · -- somebody waits in the slot already
    rw [not_and_not_right] at hnew
    have hmem := hnew Std.ReflOrd.compare_self
    rw [Std.ExtTreeMap.mem_iff_isSome_getElem?, Option.isSome_iff_exists] at hmem
    exact hmem

lemma leastBy_mem {α : Type} {less : α → α → Bool} {l : List α} {a : α}
    (h : leastBy less l = some a) : a ∈ l := by
  cases l with
  | nil => cases h
  | cons first rest =>
    have hfold : ∀ (rest : List α) (best : α),
        rest.foldl (fun best next => if less next best then next else best) best ∈
          best :: rest := by
      intro rest
      induction rest with
      | nil => exact fun best => List.mem_cons_self
      | cons next rest ih =>
        intro best
        rw [List.foldl_cons]
        split_ifs
        · exact List.mem_cons_of_mem _ (ih next)
        · rcases List.mem_cons.mp (ih best) with heq | hmem
          · exact List.mem_cons.mpr (.inl heq)
          · exact List.mem_cons_of_mem _ (List.mem_cons_of_mem _ hmem)
    cases h
    exact hfold rest first

lemma nextKey_mem {policy : ExecutionPolicy} {due : List ScheduleKey}
    (h : state.nextKey policy due = some key) : key ∈ due := by
  have hranked : ∀ less, (leastBy less (due.filterMap fun key =>
      (state.newest key).map (key, ·))).map (·.1) = some key → key ∈ due := by
    intro less h
    obtain ⟨⟨key', pos⟩, hleast, rfl⟩ := Option.map_eq_some_iff.mp h
    obtain ⟨key, hmem, hpos⟩ := List.mem_filterMap.mp (leastBy_mem hleast)
    obtain ⟨_, -, heq⟩ := Option.map_eq_some_iff.mp hpos
    cases heq
    exact hmem
  unfold nextKey at h
  split_ifs at h
  · exact hranked _ h
  · exact leastBy_mem h
  · exact hranked _ h

/-- **What a reservation does.** -/
structure Reserves (before : SchedulerState) (key : ScheduleKey) (pending : PendingCandidate)
    (after : SchedulerState) : Prop where
  room : before.activeCount < MAX_IN_FLIGHT_EVALUATIONS
  free : key ∉ before.inFlight
  waits : ∃ position : ObservationPosition, (before.queue key)[position]? = some pending
  inFlight : after.inFlight = key :: before.inFlight
  active : after.activeCount = before.activeCount + 1
  queues : ∀ (key' : ScheduleKey) (position : ObservationPosition), (after.queue key')[position]? =
    if key' = key ∧ position = pending.candidate.triggerPosition then none
    else (before.queue key')[position]?

lemma reserve_some {policy : ExecutionPolicy} {act : ActivationId} {now : Nat}
    {ready : BranchId → Bool}
    (h : state.reserve policy act now ready = (some (key, pending), after)) :
    state.Reserves key pending after := by
  unfold reserve at h
  split_ifs at h with hfull
  · cases h
  dsimp only at h
  split at h
  · cases h
  · rename_i key' pending' hnext
    cases h
    obtain ⟨key'', hkey, hwaits⟩ := Option.bind_eq_some_iff.mp hnext
    obtain ⟨⟨pos, first⟩, hfirst, heq⟩ := Option.map_eq_some_iff.mp hwaits
    obtain ⟨rfl, rfl⟩ : key = key'' ∧ pending = first := by
      cases heq
      exact ⟨rfl, rfl⟩
    have hdue := nextKey_mem hkey
    unfold dueKeys at hdue
    rw [List.mem_filter] at hdue
    have hfree : state.inFlight.contains key = false := by
      have h := hdue.2
      simp only [Bool.and_eq_true, Bool.not_eq_true'] at h
      exact h.1.2
    have hqueue : (state.queue key)[pos]? = some pending := by
      unfold PendingQueue.first? at hfirst
      obtain ⟨position', -, hpos⟩ := Option.bind_eq_some_iff.mp hfirst
      obtain ⟨_, hlookup, heq⟩ := Option.map_eq_some_iff.mp hpos
      cases heq
      exact hlookup
    refine ⟨Nat.lt_of_not_le hfull, ?_, ⟨pos, hqueue⟩, ?_, rfl, fun key' position' => ?_⟩
    · intro hmem
      rw [List.contains_iff_mem.mpr hmem] at hfree
      cases hfree
    · show (if state.inFlight.contains key then state.inFlight else key :: state.inFlight) = _
      rw [hfree]
      rfl
    · show ((((if _ then _ else _ : Std.ExtTreeMap ScheduleKey PendingQueue))[key']?).getD ∅)[
        position']? = _
      split_ifs with hempty hslot hslot
      · rw [hslot.1, Std.ExtTreeMap.lookup_erase, if_pos rfl]
        simp
      · rw [Std.ExtTreeMap.lookup_erase]
        split_ifs with hsame
        · -- the queue of the key has no other entry
          subst hsame
          have hnone : ((state.queue key).erase pending.candidate.triggerPosition)[position']? =
              none := by
            rw [Std.ExtTreeMap.isEmpty_iff.mp hempty]
            simp
          rw [Std.ExtTreeMap.lookup_erase, if_neg fun heq => hslot ⟨rfl, heq.symm⟩] at hnone
          rw [hnone]
          simp
        · rfl
      · rw [hslot.1, hslot.2, Std.ExtTreeMap.lookup_insert, if_pos rfl, Option.getD_some,
          Std.ExtTreeMap.lookup_erase, if_pos rfl]
      · rw [Std.ExtTreeMap.lookup_insert]
        split_ifs with hsame
        · subst hsame
          rw [Option.getD_some, Std.ExtTreeMap.lookup_erase,
            if_neg fun heq => hslot ⟨rfl, heq.symm⟩]
        · rfl

end SchedulerState

/-! ### Stretches -/

section Bookkeeping

variable [Platform]

def Departure.ofTask : Departure → Bool
  | settled | stale | answered | unrecorded => true
  | _ => false

omit [Platform] in
lemma RunOutcome.ofTask_departure (outcome : RunOutcome) :
    outcome.departure.ofTask = true := by
  cases outcome <;> rfl

/-- **What a stretch does to the books**, whatever the replies. -/
inductive TaskCase (task : EvaluationTask) (scheduler : SchedulerState) (step : TaskStep) : Prop
  /-- The task goes on. -/
  | continues (next : EvaluationTask) (hnext : step.next = some next) (hlive : next.live = true)
      (hkey : next.key = task.key) (hcandidate : next.pending.candidate = task.pending.candidate)
      (hcompiled : next.pending.compiled = task.pending.compiled)
      (hbooks : scheduler.SameBooks step.scheduler)
  /-- The task has ended and its key stays reserved. -/
  | held (cause : HeldCause) (hnext : step.next = some { task with phase := .held cause })
      (hscheduler : step.scheduler = scheduler.abandon)
  /-- The key is given back and the candidate waits again. -/
  | restored (pending : PendingCandidate) (hcandidate : pending.candidate = task.pending.candidate)
      (hcompiled : pending.compiled = task.pending.compiled) (hnext : step.next = none)
      (hinFlight : step.scheduler.inFlight = (scheduler.finish task.key).inFlight)
      (hactive : step.scheduler.activeCount = (scheduler.finish task.key).activeCount)
      (hpending : step.scheduler.pending = (scheduler.restorePending task.key pending).pending)
  /-- The key is given back and the candidate is gone. -/
  | left (departure : Departure) (hdeparture : departure.ofTask = true) (hnext : step.next = none)
      (hinFlight : step.scheduler.inFlight = (scheduler.finish task.key).inFlight)
      (hactive : step.scheduler.activeCount = (scheduler.finish task.key).activeCount)
      (hpending : step.scheduler.pending = scheduler.pending)
      (hevents : .left task.pending.candidate.slot departure ∈ step.events)

namespace TaskCase

variable {task task' : EvaluationTask} {sched scheduler' : SchedulerState} {rows : DurableRows}

/-- Two values of a task that hold the same candidate under the same key. -/
def Same (task task' : EvaluationTask) : Prop :=
  task'.key = task.key ∧ task'.pending.candidate = task.pending.candidate ∧
    task'.pending.compiled = task.pending.compiled

lemma Same.refl (task : EvaluationTask) : Same task task := ⟨rfl, rfl, rfl⟩

section

variable (hsame : Same task task') (hbooks : sched.SameBooks scheduler')
include hsame hbooks

lemma goOn {phase : TaskPhase} (hlive : ({ task' with phase } : EvaluationTask).live = true)
    (events : List EngineEvent) :
    TaskCase task sched (task'.goOn scheduler' rows phase events) :=
  .continues { task' with phase } rfl hlive hsame.1 hsame.2.1 hsame.2.2 hbooks

lemma leave {departure : Departure} (hdeparture : departure.ofTask = true) :
    TaskCase task sched (task'.leave scheduler' rows departure) := by
  obtain ⟨hkey, hcand, -⟩ := hsame
  refine .left departure hdeparture rfl ?_ ?_ hbooks.pending ?_
  · show scheduler'.inFlight.filter (· != task'.key) = sched.inFlight.filter (· != task.key)
    rw [hbooks.inFlight, hkey]
  · show scheduler'.activeCount - 1 = sched.activeCount - 1
    rw [hbooks.active]
  · unfold EvaluationTask.leave EvaluationTask.release
    rw [hcand]
    exact List.mem_cons_self

lemma restore {pending : PendingCandidate} (hcand : pending.candidate = task.pending.candidate)
    (hcompiled : pending.compiled = task.pending.compiled) : TaskCase task sched
      (task'.release (scheduler'.restorePending task'.key pending) rows []) := by
  obtain ⟨hkey, -, -⟩ := hsame
  refine .restored pending hcand hcompiled rfl ?_ ?_ ?_
  · show (scheduler'.restorePending task'.key pending).inFlight.filter (· != task'.key) =
      sched.inFlight.filter (· != task.key)
    rw [SchedulerState.restorePending_inFlight, hbooks.inFlight, hkey]
  · show (scheduler'.restorePending task'.key pending).activeCount - 1 = sched.activeCount - 1
    rw [SchedulerState.restorePending_active, hbooks.active]
  · show (scheduler'.restorePending task'.key pending).pending = _
    rw [hkey]
    exact SchedulerState.restorePending_pending task.key hbooks.pending pending

end

lemma releaseClaim (hsame : Same task task') {pending : PendingCandidate}
    (hcand : pending.candidate = task.pending.candidate)
    (hcompiled : pending.compiled = task.pending.compiled) (claimed : ClaimedCandidate)
    (reply : ClaimReply) :
    TaskCase task sched (task'.releaseClaim sched rows pending claimed reply) := by
  unfold EvaluationTask.releaseClaim
  split
  · exact restore hsame (.refl sched) hcand hcompiled
  · exact leave hsame (.refl sched) rfl
  · have hbooks : sched.SameBooks (sched.holdRelease task'.key claimed) := ⟨rfl, rfl, rfl⟩
    exact restore hsame hbooks hcand hcompiled

lemma hold (cause : HeldCause) : TaskCase task sched (task.hold sched rows cause) :=
  .held cause rfl rfl

lemma dropGuard (run : ModelRun) (cause : HeldCause) (released : ClaimReply) :
    TaskCase task sched (task.dropGuard sched rows run cause released) := by
  unfold EvaluationTask.dropGuard
  split_ifs
  · apply releaseClaim (.refl task) <;> rfl
  · exact leave (.refl task) (.refl sched) rfl
  · exact hold cause

lemma ends (run : ModelRun) (cause : HeldCause) (released : ClaimReply)
    (result : Except StoreError RunOutcome) :
    TaskCase task sched (task.ends sched rows run cause released result) := by
  unfold EvaluationTask.ends
  split
  · exact leave (.refl task) (.refl sched) (RunOutcome.ofTask_departure _)
  · exact dropGuard run cause released

end TaskCase

namespace EvaluationTask

variable (engine : CheckEngine) (task : EvaluationTask) (sched : SchedulerState)
  (rows : DurableRows)

lemma releasePrevious_case (reply : ClaimReply) :
    TaskCase task sched (task.releasePrevious sched rows reply) := by
  unfold releasePrevious
  split
  · exact .goOn (.refl task) (.refl sched) rfl []
  · split
    · apply TaskCase.restore (.refl task) (.refl sched) <;> rfl
    · exact .goOn (.refl task) (sched.sameBooks_clearRelease task.key) rfl []

lemma claimDue_case (reply : ClaimDueReply) :
    TaskCase task sched (task.claimDue sched rows reply) := by
  cases reply with
  | claimed priorStatus fence => exact .goOn (.refl task) (.refl sched) rfl []
  | notDue retryAtUnixMs =>
    have hbooks : sched.SameBooks { sched with
        cooldownUntil := sched.cooldownUntil.insert task.key retryAtUnixMs } := ⟨rfl, rfl, rfl⟩
    apply TaskCase.restore (.refl task) hbooks <;> rfl
  | stale => exact .leave (.refl task) (sched.sameBooks_clearTicketIfIdle task.key) rfl
  | failed error => apply TaskCase.restore (.refl task) (.refl sched) <;> rfl

lemma startLocal_case (claimed : ClaimedCandidate) (replies : LocalStartReplies) :
    TaskCase task sched (task.startLocal engine sched rows claimed replies) := by
  have hticket := sched.sameBooks_clearTicketIfIdle task.key
  have hrest : TaskCase task sched
      (task.releaseClaim sched rows task.pending claimed replies.restored) :=
    .releaseClaim ⟨rfl, rfl, rfl⟩ rfl rfl claimed replies.restored
  unfold startLocal
  dsimp only
  split
  · split
    · apply TaskCase.restore (.refl task) (.refl sched) <;> rfl
    · exact .leave (.refl task) hticket rfl
    · exact hrest
  · split
    · split
      · exact .leave (.refl task) hticket (RunOutcome.ofTask_departure _)
      · exact hrest
    · split
      · exact .goOn (.refl task) (sched.sameBooks_markStarted task.key _ _ _) rfl []
      · exact .leave (.refl task) hticket rfl
      · exact hrest

lemma runLocal_case (replies : LocalReplies) :
    TaskCase task sched (task.runLocal sched rows replies) := by
  unfold runLocal
  split
  · exact .leave (.refl task) (.refl sched) (RunOutcome.ofTask_departure _)
  · exact .leave (.refl task) (.refl sched) rfl

lemma startModel_case (claimed : ClaimedCandidate) (replies : ModelStartReplies) :
    TaskCase task sched (task.startModel engine sched rows claimed replies) := by
  have hticket := sched.sameBooks_clearTicketIfIdle task.key
  unfold startModel
  dsimp only
  split
  · apply TaskCase.releaseClaim (.refl task) <;> rfl
  · split
    · split
      · exact .leave (.refl task) (.refl sched) (RunOutcome.ofTask_departure _)
      · exact .leave (.refl task) (.refl sched) rfl
    · split
      · refine TaskCase.goOn ?_ (.refl sched) ?_ []
        · exact ⟨rfl, rfl, rfl⟩
        · rfl
      · exact .leave (.refl task) hticket (RunOutcome.ofTask_departure _)
      · exact .leave (.refl task) (.refl sched) rfl
      · apply TaskCase.releaseClaim (.refl task) <;> rfl

lemma dispatch_case (run : ModelRun) (attempt : DecisionAttempt) (unfinishedDecisions : Nat)
    (replies : TurnReplies) : TaskCase task sched
      (task.dispatch engine sched rows run attempt unfinishedDecisions replies) := by
  unfold dispatch
  dsimp only
  split
  · exact .ends run _ replies.released _
  · split
    · exact .ends run _ replies.released _
    · split
      · refine .goOn ⟨rfl, rfl, rfl⟩ ?_ rfl _
        split_ifs
        · exact sched.sameBooks_markStarted task.key _ _ _
        · exact .refl sched
      · exact .leave (.refl task) (.refl sched) rfl
      · exact .dropGuard _ _ replies.released

lemma turn_case (run : ModelRun) (replies : TurnReplies) :
    TaskCase task sched (task.turn engine sched rows run replies) := by
  unfold turn
  split
  · exact .dropGuard run _ replies.released
  · split
    · exact .dropGuard run _ replies.released
    · split
      · exact .ends _ _ replies.released _
      · exact .ends _ _ replies.released _
      · exact task.dispatch_case engine sched rows run _ _ replies

lemma settled_case (run : ModelRun) (replies : SettlementReplies) :
    TaskCase task sched (task.settled engine sched rows run replies) := by
  unfold settled
  split
  · exact .dropGuard run _ replies.released
  · split
    · exact .goOn (.refl task) (.refl sched) rfl []
    · exact .goOn (.refl task) (.refl sched) rfl []
    · split
      · exact .dropGuard run _ replies.released
      · exact .ends _ _ replies.released _

lemma settle_case (run : ModelRun) (attempt : DecisionAttempt) (replies : SettlementReplies) :
    TaskCase task sched (task.settle engine sched rows run attempt replies) := by
  unfold settle
  dsimp only
  split
  · exact .dropGuard run _ replies.released
  · exact .leave (.refl task) (.refl sched) rfl
  · exact task.settled_case engine sched _ _ replies

lemma dropped_case {released : ClaimReply} {step : TaskStep}
    (h : task.dropped sched rows released = some step) : TaskCase task sched step := by
  unfold dropped at h
  split at h
  · cases h
    exact .leave (.refl task) (.refl sched) rfl
  · cases h
    exact .dropGuard _ _ released
  · cases h
    exact .dropGuard _ _ released
  · cases h

/-- **Every stretch of an evaluation is one of the cases.** -/
lemma apply_case {op : TaskOp} {step : TaskStep}
    (h : task.apply engine sched rows op = some step) :
    TaskCase task sched step ∧ task.live = true := by
  have hlive : ∀ phase, task.phase = phase →
      ({ task with phase } : EvaluationTask).live = true → task.live = true := by
    rintro phase rfl hlive
    exact hlive
  cases op with
  | drop released =>
    refine ⟨task.dropped_case sched rows h, ?_⟩
    simp only [apply, dropped] at h
    split at h
    · exact hlive _ ‹_› rfl
    · exact hlive _ ‹_› rfl
    · exact hlive _ ‹_› rfl
    · cases h
  | releasePrevious reply =>
    simp only [apply] at h
    split at h
    · cases h
      exact ⟨task.releasePrevious_case sched rows reply, hlive _ ‹_› rfl⟩
    · cases h
  | claimDue reply =>
    simp only [apply] at h
    split at h
    · cases h
      exact ⟨task.claimDue_case sched rows reply, hlive _ ‹_› rfl⟩
    · cases h
  | start replies replies' =>
    simp only [apply] at h
    split at h
    · cases h
      refine ⟨?_, hlive _ ‹_› rfl⟩
      split_ifs
      · exact task.startLocal_case engine sched rows _ replies
      · exact task.startModel_case engine sched rows _ replies'
    · cases h
  | runLocal replies =>
    simp only [apply] at h
    split at h
    · cases h
      exact ⟨task.runLocal_case sched rows replies, hlive _ ‹_› rfl⟩
    · cases h
  | turn replies =>
    simp only [apply] at h
    split at h
    · cases h
      exact ⟨task.turn_case engine sched rows _ replies, hlive _ ‹_› rfl⟩
    · cases h
  | settle replies =>
    simp only [apply] at h
    split at h
    · cases h
      exact ⟨task.settle_case engine sched rows _ _ replies, hlive _ ‹_› rfl⟩
    · cases h

end EvaluationTask

end Bookkeeping

end Antiburn
