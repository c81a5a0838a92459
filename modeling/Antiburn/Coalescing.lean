/-
The newest window candidate under coalescing.

A queue of a windowed activation never holds two candidates that no run has
started.  A new candidate replaces the one that waits; that a later one stays is
decided by the last entry of the queue alone, which may be a resumed candidate
that hides it (`coalescing_iff`).
-/
import Antiburn.Scheduler
import Antiburn.Selector

namespace Antiburn

/-! ### Runs of the scheduler -/

inductive SchedulerOp where
  | enqueue (candidate : FrozenCandidate) (resumed : Bool)
  | prune (terminal : List CandidateId)
  | persistActivation (definitionId : String) (activation : Option EffectiveActivation)
  | resetBranches (activation : EffectiveActivation) (branches : List BranchId)
  | reserve (policy : ExecutionPolicy) (activation : ActivationId) (now : Nat)
      (ready : BranchId → Bool)
  | restore (candidate : FrozenCandidate) (resumed : Bool)
  | defer (candidate : FrozenCandidate) (resumed : Bool) (retryAt : Nat)
  | markStarted (policy : ExecutionPolicy) (key : ScheduleKey) (now cooldown : Nat)
  | clearTicket (key : ScheduleKey)
  | finish (key : ScheduleKey)
  | abandon
  | holdRelease (key : ScheduleKey) (claimed : ClaimedCandidate)
  | clearRelease (key : ScheduleKey)

/-- The activations that candidates belong to, under their identities. -/
structure Activations where
  find : ActivationId → EffectiveActivation
  find_id : ∀ id, (find id).id = id

def Activations.pending (activations : Activations) (candidate : FrozenCandidate) (resumed : Bool) :
    PendingCandidate :=
  ⟨candidate, (activations.find candidate.activation).compiled, resumed⟩

/-- One lock section. -/
def SchedulerOp.apply (activations : Activations) (state : SchedulerState) :
    SchedulerOp → SchedulerState
  | .enqueue candidate resumed =>
    (state.enqueueWithResume (activations.find candidate.activation) candidate resumed).2
  | .prune terminal => state.pruneTerminal terminal
  | .persistActivation definitionId activation => state.persistActivation definitionId activation
  | .resetBranches activation branches => state.resetBranches activation branches
  | .reserve policy activation now ready => (state.reserve policy activation now ready).2
  | .restore candidate resumed =>
    state.restorePending candidate.key (activations.pending candidate resumed)
  | .defer candidate resumed retryAt =>
    state.deferCandidate candidate.key (activations.pending candidate resumed) retryAt
  | .markStarted policy key now cooldown => state.markStarted policy key now cooldown
  | .clearTicket key => state.clearTicketIfIdle key
  | .finish key => state.finish key
  | .abandon => state.abandon
  | .holdRelease key claimed => state.holdRelease key claimed
  | .clearRelease key => state.clearRelease key

/-- The scheduler behind some lock sections, whichever threads they come from. -/
def SchedulerOp.applyAll (activations : Activations) (ops : List SchedulerOp) : SchedulerState :=
  ops.foldl (SchedulerOp.apply activations) {}

/-! ### Fresh candidates -/

def PendingQueue.AtMostOneFresh (queue : PendingQueue) : Prop :=
  ∀ (position position' : ObservationPosition) (pending pending' : PendingCandidate),
    queue[position]? = some pending → queue[position']? = some pending' →
      pending.resumed = false → pending'.resumed = false → position = position'

variable {position : ObservationPosition} {pending : PendingCandidate}

namespace PendingQueue

variable {queue : PendingQueue}

lemma hasFresh_iff :
    queue.hasFresh = true ↔ ∃ (position : ObservationPosition) (pending : PendingCandidate),
      queue[position]? = some pending ∧ pending.resumed = false := by
  unfold hasFresh
  simp only [List.any_eq_true, Prod.exists, Bool.not_eq_true',
    Std.ExtTreeMap.mem_toList_iff_getElem?_eq_some]

lemma last?_eq_some (h : queue.last? = some (position, pending)) :
    queue[position]? = some pending ∧
      ∀ (other : ObservationPosition) (pending' : PendingCandidate),
        queue[other]? = some pending' → other ≤ position := by
  unfold last? at h
  rw [Option.bind_eq_some_iff] at h
  obtain ⟨key, hmax, h⟩ := h
  rw [Option.map_eq_some_iff] at h
  obtain ⟨value, hvalue, h⟩ := h
  cases h
  rw [Std.ExtTreeMap.maxKey?_eq_some_iff_mem_and_forall] at hmax
  refine ⟨hvalue, fun other pending' hother => ?_⟩
  have hmem : other ∈ queue := by
    rw [Std.ExtTreeMap.mem_iff_isSome_getElem?, hother]
    rfl
  exact Nat.isLE_compare.mp (hmax.2 other hmem)

lemma exists_last? (h : queue[position]? = some pending) :
    ∃ (last : ObservationPosition) (pending' : PendingCandidate),
      queue.last? = some (last, pending') := by
  unfold last?
  cases hmax : queue.maxKey? with
  | none =>
    rw [Std.ExtTreeMap.maxKey?_eq_none_iff] at hmax
    subst hmax
    simp at h
  | some key =>
    have hmem := Std.ExtTreeMap.maxKey?_mem hmax
    rw [Std.ExtTreeMap.mem_iff_isSome_getElem?, Option.isSome_iff_exists] at hmem
    obtain ⟨value, hvalue⟩ := hmem
    exact ⟨key, value, by simp [hvalue]⟩

lemma AtMostOneFresh.mono {queue' : PendingQueue} (h : queue.AtMostOneFresh)
    (hsub : ∀ (position : ObservationPosition) (pending : PendingCandidate),
      queue'[position]? = some pending → pending.resumed = false →
        ∃ pending', queue[position]? = some pending' ∧ pending'.resumed = false) :
    queue'.AtMostOneFresh := by
  intro position position' pending pending' hp hp' hfresh hfresh'
  obtain ⟨old, hold, hold_fresh⟩ := hsub position pending hp hfresh
  obtain ⟨old', hold', hold_fresh'⟩ := hsub position' pending' hp' hfresh'
  exact h position position' old old' hold hold' hold_fresh hold_fresh'

end PendingQueue

namespace SchedulerState

variable (state : SchedulerState)

/-! ### Queues behind a lock section -/

lemma queue_insert (key key' : ScheduleKey) (queue : PendingQueue) :
    ({ state with pending := state.pending.insert key queue } : SchedulerState).queue key' =
      if key = key' then queue else state.queue key' := by
  unfold SchedulerState.queue
  rw [Std.ExtTreeMap.lookup_insert]
  split_ifs <;> rfl

lemma queue_filter (keeps : ScheduleKey → Bool) (key : ScheduleKey) :
    ({ state with pending := state.pending.filter fun key _ => keeps key } : SchedulerState).queue
        key = if keeps key then state.queue key else ∅ := by
  unfold SchedulerState.queue
  rw [Std.ExtTreeMap.lookup_filterKeys]
  split_ifs <;> rfl

/-- Everything that admission can do to the queue of its candidate. -/
inductive AdmitCase (activation : EffectiveActivation) (candidate : FrozenCandidate)
    (resumed : Bool) (queue : PendingQueue) : EnqueueOutcome → PendingQueue → Prop
  /-- The position is taken. -/
  | occupied {existing : PendingCandidate}
      (hposition : queue[candidate.triggerPosition]? = some existing) :
      AdmitCase activation candidate resumed queue .queued
        (queue.insert candidate.triggerPosition
          { existing with resumed := existing.resumed || resumed })
  /-- The queues are full. -/
  | overflow (hposition : queue[candidate.triggerPosition]? = none)
      (hkeeps : (!resumed && activation.compiled.trigger.window.isSome && queue.hasFresh) = false) :
      AdmitCase activation candidate resumed queue .overflow queue
  /-- The last candidate is fresh and newer. -/
  | later {last : ObservationPosition} {pending : PendingCandidate}
      (hposition : queue[candidate.triggerPosition]? = none)
      (hlast : queue.last? = some (last, pending)) (hfresh : pending.resumed = false)
      (hlater : candidate.triggerPosition < last) :
      AdmitCase activation candidate resumed queue .coalesced queue
  /-- The candidate replaces what was fresh. -/
  | replaced (hposition : queue[candidate.triggerPosition]? = none)
      (hresumed : resumed = false) (hwindow : activation.compiled.trigger.window.isSome = true)
      (hfresh : queue.hasFresh = true)
      (hlast : ∀ (last : ObservationPosition) (pending : PendingCandidate),
        queue.last? = some (last, pending) → pending.resumed = false →
          last ≤ candidate.triggerPosition) :
      AdmitCase activation candidate resumed queue .coalesced
        ((queue.filter fun _ pending => pending.resumed).insert candidate.triggerPosition
          ⟨candidate, activation.compiled, resumed⟩)
  /-- The candidate joins the queue. -/
  | added (hposition : queue[candidate.triggerPosition]? = none)
      (hkeeps : (!resumed && activation.compiled.trigger.window.isSome && queue.hasFresh) = false) :
      AdmitCase activation candidate resumed queue .queued
        (queue.insert candidate.triggerPosition ⟨candidate, activation.compiled, resumed⟩)

@[simp] lemma issueTicket_queue (key key' : ScheduleKey) :
    (state.issueTicket key).queue key' = state.queue key' := rfl

lemma enqueueWithResume_cases (act : EffectiveActivation) (candidate : FrozenCandidate)
    (resumed : Bool) :
    AdmitCase act candidate resumed (state.queue candidate.key)
        (state.enqueueWithResume act candidate resumed).1
        ((state.enqueueWithResume act candidate resumed).2.queue candidate.key) ∧
      ∀ key, key ≠ candidate.key →
        (state.enqueueWithResume act candidate resumed).2.queue key = state.queue key := by
  unfold enqueueWithResume
  cases hposition : (state.queue candidate.key)[candidate.triggerPosition]? with
  | some existing =>
    refine ⟨?_, fun key hkey => ?_⟩
    · simp only [hposition, queue_insert, if_true]
      exact .occupied hposition
    · simp only [hposition, queue_insert, if_neg (Ne.symm hkey)]
  | none =>
    simp only [hposition]
    cases hrepl : (!resumed && act.compiled.trigger.window.isSome &&
        (state.queue candidate.key).hasFresh) with
    | true =>
      simp only [Bool.not_true, Bool.false_and, Bool.false_eq_true, if_false, Bool.true_and,
        if_true]
      split_ifs with hlater hticket
      · refine ⟨?_, fun _ _ => rfl⟩
        rw [Option.any_eq_true] at hlater
        obtain ⟨⟨last, pending⟩, hlast, hlater⟩ := hlater
        simp only [Bool.and_eq_true, Bool.not_eq_true', decide_eq_true_eq] at hlater
        exact .later hposition hlast hlater.1 hlater.2
      all_goals
        simp only [Bool.and_eq_true, Bool.not_eq_true'] at hrepl
        refine ⟨?_, fun key hkey => ?_⟩
        · simp only [issueTicket_queue, queue_insert, if_true]
          refine .replaced hposition hrepl.1.1 hrepl.1.2 hrepl.2 ?_
          intro last pending hlast hfresh
          rw [hlast] at hlater
          simp only [Option.any_some, hfresh, Bool.not_false, Bool.true_and,
            decide_eq_true_eq] at hlater
          exact Nat.not_lt.mp hlater
        · simp only [issueTicket_queue, queue_insert, if_neg (Ne.symm hkey)]
    | false =>
      simp only [Bool.not_false, Bool.true_and, Bool.false_and, Bool.false_eq_true, if_false]
      split_ifs with hfull hticket
      · exact ⟨.overflow hposition hrepl, fun _ _ => rfl⟩
      all_goals
        refine ⟨?_, fun key hkey => ?_⟩
        · simp only [issueTicket_queue, queue_insert, if_true]
          exact .added hposition hrepl
        · simp only [issueTicket_queue, queue_insert, if_neg (Ne.symm hkey)]

variable {state}

/-- What the other lock sections leave of the fresh candidates of a queue. -/
def FreshSubset (queue' queue : PendingQueue) : Prop :=
  ∀ (position : ObservationPosition) (pending : PendingCandidate),
    queue'[position]? = some pending → pending.resumed = false →
      ∃ pending', queue[position]? = some pending' ∧ pending'.resumed = false

lemma FreshSubset.refl (queue : PendingQueue) : FreshSubset queue queue :=
  fun _ pending h hfresh => ⟨pending, h, hfresh⟩

lemma freshSubset_empty (queue : PendingQueue) : FreshSubset ∅ queue := by
  intro position pending h
  simp at h

lemma freshSubset_filter (p : ObservationPosition → PendingCandidate → Bool)
    (queue : PendingQueue) : FreshSubset (queue.filter p) queue := by
  intro position pending h hfresh
  rw [Std.ExtTreeMap.getElem?_filter', Option.filter_eq_some_iff] at h
  exact ⟨pending, h.1, hfresh⟩

lemma freshSubset_erase (position : ObservationPosition) (queue : PendingQueue) :
    FreshSubset (queue.erase position) queue := by
  intro position' pending h hfresh
  rw [Std.ExtTreeMap.lookup_erase] at h
  split_ifs at h
  exact ⟨pending, h, hfresh⟩

lemma pruneTerminal_freshSubset (terminal : List CandidateId) (key : ScheduleKey) :
    FreshSubset ((state.pruneTerminal terminal).queue key) (state.queue key) := by
  unfold pruneTerminal SchedulerState.queue
  simp only [Std.ExtTreeMap.getElem?_filter', Std.ExtTreeMap.lookup_map]
  cases state.pending[key]? with
  | none => exact FreshSubset.refl _
  | some queue =>
    simp only [Option.map_some, Option.getD_some, Option.filter_some]
    split_ifs
    · exact freshSubset_filter _ _
    · exact freshSubset_empty _

lemma filterKeys_freshSubset (keeps : ScheduleKey → Bool) (key : ScheduleKey) :
    FreshSubset (({ state with
      pending := state.pending.filter fun key _ => keeps key } : SchedulerState).queue key)
      (state.queue key) := by
  rw [queue_filter]
  split_ifs
  · exact FreshSubset.refl _
  · exact freshSubset_empty _

lemma reserve_freshSubset (policy : ExecutionPolicy) (act : ActivationId) (now : Nat)
    (ready : BranchId → Bool) (key : ScheduleKey) :
    FreshSubset ((state.reserve policy act now ready).2.queue key) (state.queue key) := by
  unfold reserve
  split_ifs
  · exact FreshSubset.refl _
  · dsimp only
    split
    · exact FreshSubset.refl _
    · rename_i key' pending _
      dsimp only
      show FreshSubset (((if _ then _ else _ : Std.ExtTreeMap ScheduleKey PendingQueue)[key]?).getD ∅) _
      split_ifs with hempty
      · rw [Std.ExtTreeMap.lookup_erase]
        split_ifs
        · exact freshSubset_empty _
        · exact FreshSubset.refl _
      · rw [Std.ExtTreeMap.lookup_insert]
        split_ifs with hkey
        · subst hkey
          exact freshSubset_erase _ _
        · exact FreshSubset.refl _

end SchedulerState

/-! ### At most one fresh candidate -/

section Invariant

variable (activations : Activations)

def Activations.Windowed (id : ActivationId) : Prop :=
  (activations.find id).compiled.trigger.window.isSome = true

/-- Every queue of a windowed activation holds at most one fresh candidate. -/
def SchedulerState.OneFresh (state : SchedulerState) : Prop :=
  ∀ key, activations.Windowed key.activation → (state.queue key).AtMostOneFresh

variable {activations} {state : SchedulerState}

lemma oneFresh_of_subset {state' : SchedulerState} (h : state.OneFresh activations)
    (hsub : ∀ key, SchedulerState.FreshSubset (state'.queue key) (state.queue key)) :
    state'.OneFresh activations :=
  fun key hwindow => (h key hwindow).mono (hsub key)

lemma atMostOneFresh_insert {queue : PendingQueue} (h : queue.AtMostOneFresh)
    (hfresh : pending.resumed = false → queue.hasFresh = false) :
    PendingQueue.AtMostOneFresh (queue.insert position pending) := by
  intro p p' value value' hp hp' hvalue hvalue'
  rw [Std.ExtTreeMap.lookup_insert] at hp hp'
  have hnone : pending.resumed = false → ∀ (q : ObservationPosition) (old : PendingCandidate),
      queue[q]? = some old → old.resumed = false → False := by
    intro hpending q old hold hold_fresh
    have hsome := PendingQueue.hasFresh_iff.mpr ⟨q, old, hold, hold_fresh⟩
    rw [hfresh hpending] at hsome
    cases hsome
  split_ifs at hp hp' with hpos hpos' hpos'
  · exact hpos.symm.trans hpos'
  · injection hp with hp
    subst hp
    exact (hnone hvalue p' value' hp' hvalue').elim
  · injection hp' with hp'
    subst hp'
    exact (hnone hvalue' p value hp hvalue).elim
  · exact h p p' value value' hp hp' hvalue hvalue'

section

variable (h : state.OneFresh activations)
include h

lemma enqueueWithResume_oneFresh (candidate : FrozenCandidate)
    (resumed : Bool) :
    (state.enqueueWithResume (activations.find candidate.activation) candidate resumed).2.OneFresh
      activations := by
  obtain ⟨hcase, hother⟩ :=
    state.enqueueWithResume_cases (activations.find candidate.activation) candidate resumed
  intro key hwindow
  by_cases hkey : key = candidate.key
  · subst hkey
    have hqueue := h candidate.key hwindow
    have hwindow' : (activations.find candidate.activation).compiled.trigger.window.isSome = true :=
      hwindow
    generalize (state.enqueueWithResume (activations.find candidate.activation) candidate resumed).1 = outcome
      at hcase
    generalize (state.enqueueWithResume (activations.find candidate.activation) candidate resumed).2.queue
      candidate.key = queue' at hcase ⊢
    have hkeep : (!resumed && (activations.find candidate.activation).compiled.trigger.window.isSome
          && (state.queue candidate.key).hasFresh) = false → resumed = false →
        (state.queue candidate.key).hasFresh = false := by
      intro hkeeps hresumed
      rw [hwindow', hresumed] at hkeeps
      exact hkeeps
    cases hcase with
    | occupied hposition =>
      refine hqueue.mono fun position pending hpending hfresh => ?_
      rw [Std.ExtTreeMap.lookup_insert] at hpending
      split_ifs at hpending with hpos
      · injection hpending with hpending
        subst hpos hpending
        simp only [Bool.or_eq_false_iff] at hfresh
        exact ⟨_, hposition, hfresh.1⟩
      · exact ⟨_, hpending, hfresh⟩
    | overflow | later => exact hqueue
    | replaced hposition hresumed hwindow hfresh hlast =>
      refine atMostOneFresh_insert (hqueue.mono (SchedulerState.freshSubset_filter _ _)) fun _ => ?_
      -- nothing fresh is left by the filter
      rw [← Bool.not_eq_true, PendingQueue.hasFresh_iff]
      rintro ⟨position, pending, hpending, hpendingFresh⟩
      rw [Std.ExtTreeMap.getElem?_filter', Option.filter_eq_some_iff, hpendingFresh] at hpending
      cases hpending.2
    | added hposition hkeeps => exact atMostOneFresh_insert hqueue fun h => hkeep hkeeps h
  · rw [hother key hkey]
    exact h key hwindow

lemma restorePending_oneFresh (candidate : FrozenCandidate)
    (resumed : Bool) :
    (state.restorePending candidate.key (activations.pending candidate resumed)).OneFresh
      activations := by
  unfold SchedulerState.restorePending
  dsimp only
  split_ifs with hkeeps
  · exact h
  · intro key hwindow
    rw [SchedulerState.queue_insert]
    split_ifs with hkey
    · subst hkey
      have hwindow' :
          (activations.find candidate.activation).compiled.trigger.window.isSome = true := hwindow
      have hfresh : (activations.pending candidate resumed).resumed = false →
          (state.queue candidate.key).hasFresh = false := by
        intro hresumed
        simp only [hresumed, Bool.not_false, Bool.true_and, Bool.and_eq_true, not_and,
          Bool.not_eq_true] at hkeeps
        exact hkeeps hwindow'
      by_cases hmem : candidate.triggerPosition ∈ state.queue candidate.key
      · refine (h candidate.key hwindow).mono fun position pending hpending hvalue => ?_
        rw [Std.ExtTreeMap.getElem?_insertIfNew, if_neg fun h => h.2 hmem] at hpending
        exact ⟨pending, hpending, hvalue⟩
      · have hinsert : PendingQueue.AtMostOneFresh ((state.queue candidate.key).insert
            candidate.triggerPosition (activations.pending candidate resumed)) :=
          atMostOneFresh_insert (h candidate.key hwindow) hfresh
        refine hinsert.mono fun position pending hpending hvalue => ?_
        rw [Std.ExtTreeMap.getElem?_insertIfNew] at hpending
        rw [Std.ExtTreeMap.lookup_insert]
        split_ifs at hpending with hpos
        · have heq : candidate.triggerPosition = position :=
            Std.LawfulEqOrd.eq_of_compare hpos.1
          rw [if_pos heq]
          exact ⟨_, rfl, by rw [Option.some.inj hpending]; exact hvalue⟩
        · have hne : ¬ candidate.triggerPosition = position := by
            intro heq
            subst heq
            exact hpos ⟨Std.ReflOrd.compare_self, hmem⟩
          rw [if_neg hne]
          exact ⟨pending, hpending, hvalue⟩
    · exact h key hwindow

lemma apply_oneFresh (op : SchedulerOp) :
    (op.apply activations state).OneFresh activations := by
  cases op with
  | enqueue candidate resumed => exact enqueueWithResume_oneFresh h candidate resumed
  | prune terminal =>
    exact oneFresh_of_subset h (SchedulerState.pruneTerminal_freshSubset terminal)
  | persistActivation definitionId act | resetBranches act branches =>
    exact oneFresh_of_subset h (SchedulerState.filterKeys_freshSubset _)
  | reserve policy act now ready =>
    exact oneFresh_of_subset h (SchedulerState.reserve_freshSubset policy act now ready)
  | restore candidate resumed => exact restorePending_oneFresh h candidate resumed
  | defer candidate resumed retryAt =>
    -- the cooldown is no part of a queue
    have hcooldown : SchedulerState.OneFresh activations
        { state with cooldownUntil := state.cooldownUntil.insert candidate.key retryAt } := h
    exact restorePending_oneFresh hcooldown candidate resumed
  | markStarted policy key now cooldown =>
    refine oneFresh_of_subset h fun key' => ?_
    have hqueue : ((SchedulerOp.markStarted policy key now cooldown).apply activations
        state).queue key' = state.queue key' := by
      simp only [SchedulerOp.apply, SchedulerState.markStarted]
      split_ifs <;> rfl
    rw [hqueue]
    exact SchedulerState.FreshSubset.refl _
  | clearTicket key =>
    refine oneFresh_of_subset h fun key' => ?_
    have hqueue : ((SchedulerOp.clearTicket key).apply activations state).queue key' =
        state.queue key' := by
      simp only [SchedulerOp.apply, SchedulerState.clearTicketIfIdle]
      split_ifs <;> rfl
    rw [hqueue]
    exact SchedulerState.FreshSubset.refl _
  | finish | abandon | holdRelease | clearRelease => exact h

end

lemma applyAll_oneFresh (activations : Activations) (ops : List SchedulerOp) :
    (SchedulerOp.applyAll activations ops).OneFresh activations := by
  unfold SchedulerOp.applyAll
  refine List.foldlRecOn ops _ ?_ fun state h op _ => apply_oneFresh h op
  intro key _ position position' pending pending' hp
  simp [SchedulerState.queue] at hp

end Invariant

/-! ### Later candidates -/

section Later

variable (activations : Activations) (state : SchedulerState) (candidate : FrozenCandidate)

/-- Enqueueing a candidate afresh leaves every later fresh candidate of its queue pending. -/
def SchedulerState.KeepsLater : Prop :=
  ∀ (position : ObservationPosition) (pending : PendingCandidate),
    (state.queue candidate.key)[position]? = some pending → pending.resumed = false →
      candidate.triggerPosition < position →
        ((state.enqueueWithResume (activations.find candidate.activation) candidate false).2.queue
          candidate.key)[position]? = some pending

/-- A resumed candidate at the end of the queue hides a fresh one that is later than
the candidate. -/
def SchedulerState.Hidden : Prop :=
  (state.queue candidate.key)[candidate.triggerPosition]? = none ∧
    ((state.queue candidate.key).last?.all fun entry => entry.2.resumed) ∧
      ∃ (position : ObservationPosition) (pending : PendingCandidate),
        (state.queue candidate.key)[position]? = some pending ∧ pending.resumed = false ∧
          candidate.triggerPosition < position

variable {activations state candidate}

lemma keepsLater_iff (hwindow : activations.Windowed candidate.activation) :
    state.KeepsLater activations candidate ↔ ¬ state.Hidden candidate := by
  have hcase := (state.enqueueWithResume_cases (activations.find candidate.activation) candidate false).1
  unfold SchedulerState.KeepsLater
  generalize (state.enqueueWithResume (activations.find candidate.activation) candidate false).1 = outcome
    at hcase
  generalize (state.enqueueWithResume (activations.find candidate.activation) candidate false).2.queue
    candidate.key = queue' at hcase ⊢
  -- a queue that keeps its entries at later positions keeps the later candidates
  have hkeeps : ∀ hfree : ¬ state.Hidden candidate,
      (∀ position, candidate.triggerPosition < position →
        queue'[position]? = (state.queue candidate.key)[position]?) →
      ((∀ (position : ObservationPosition) (pending : PendingCandidate),
        (state.queue candidate.key)[position]? = some pending → pending.resumed = false →
          candidate.triggerPosition < position → queue'[position]? = some pending) ↔
        ¬ state.Hidden candidate) := by
    intro hfree hsame
    refine iff_of_true (fun position pending hpending _ hlater => ?_) hfree
    rw [hsame position hlater, hpending]
  cases hcase with
  | occupied hposition =>
    refine hkeeps (fun hhidden => ?_) fun position hlater => ?_
    · rw [hhidden.1] at hposition
      cases hposition
    · rw [Std.ExtTreeMap.lookup_insert, if_neg (Nat.ne_of_lt hlater)]
  | overflow hposition hkeep =>
    refine hkeeps (fun hhidden => ?_) fun position hlater => rfl
    obtain ⟨position, pending, hpending, hfresh, hlater⟩ := hhidden.2.2
    have hsome := PendingQueue.hasFresh_iff.mpr ⟨position, pending, hpending, hfresh⟩
    rw [hwindow, hsome] at hkeep
    cases hkeep
  | later hposition hlast hfresh hlater =>
    refine hkeeps (fun hhidden => ?_) fun position hlater => rfl
    have hall := hhidden.2.1
    rw [hlast, Option.all_some, hfresh] at hall
    cases hall
  | replaced hposition hresumed hwindow hfresh hlast =>
    constructor
    · intro hall hhidden
      obtain ⟨position, pending, hpending, hpendingFresh, hlater⟩ := hhidden.2.2
      have hkept := hall position pending hpending hpendingFresh hlater
      rw [Std.ExtTreeMap.lookup_insert, if_neg (Nat.ne_of_lt hlater),
        Std.ExtTreeMap.getElem?_filter', Option.filter_eq_some_iff, hpendingFresh] at hkept
      cases hkept.2
    · intro hfree position pending hpending hpendingFresh hlater
      -- the last entry is fresh, so it is the later candidate and stands in its way
      obtain ⟨last, pending', hsome⟩ := PendingQueue.exists_last? hpending
      have hentry := PendingQueue.last?_eq_some hsome
      refine (hfree ⟨hposition, ?_, position, pending, hpending, hpendingFresh, hlater⟩).elim
      rw [hsome, Option.all_some]
      cases hlastFresh : pending'.resumed with
      | true => rfl
      | false =>
        have hle := hlast last pending' hsome hlastFresh
        have hge := hentry.2 position pending hpending
        exact absurd (Nat.lt_of_lt_of_le hlater hge) (Nat.not_lt.mpr hle)
  | added hposition hkeep =>
    refine hkeeps (fun hhidden => ?_) fun position hlater => ?_
    · obtain ⟨position, pending, hpending, hfresh, hlater⟩ := hhidden.2.2
      have hsome := PendingQueue.hasFresh_iff.mpr ⟨position, pending, hpending, hfresh⟩
      rw [hwindow, hsome] at hkeep
      cases hkeep
    · rw [Std.ExtTreeMap.lookup_insert, if_neg (Nat.ne_of_lt hlater)]

/-- **Coalescing.**  In every run, the queues of windowed activations hold at most one
fresh candidate, and enqueueing keeps the later ones exactly in the runs where no
candidate is enqueued behind the back of a resumed one. -/
theorem coalescing_iff (activations : Activations) (ops : List SchedulerOp) :
    (SchedulerOp.applyAll activations ops).OneFresh activations ∧
      ((∀ before candidate after, ops = before ++ .enqueue candidate false :: after →
          activations.Windowed candidate.activation →
            (SchedulerOp.applyAll activations before).KeepsLater activations candidate) ↔
        ∀ before candidate after, ops = before ++ .enqueue candidate false :: after →
          activations.Windowed candidate.activation →
            ¬ (SchedulerOp.applyAll activations before).Hidden candidate) := by
  refine ⟨applyAll_oneFresh activations ops, ?_⟩
  constructor
  · intro h before candidate after hops hwindow
    exact (keepsLater_iff hwindow).mp (h before candidate after hops hwindow)
  · intro h before candidate after hops hwindow
    exact (keepsLater_iff hwindow).mpr (h before candidate after hops hwindow)

/-- A candidate of the stream `main` that triggered at a position. -/
def lateCandidate (position : ObservationPosition) : FrozenCandidate :=
  { activation := (userMessageActivation 1 Nat.one_pos one_le_MAX_WINDOW_SIZE).id
    branch := "main"
    triggerPosition := position
    messages := []
    context := ⟨.object [], []⟩
    dependencies := []
    fingerprint := Vector.replicate 32 0 }

/-- Recovery that delivers 10 afresh, 20 as resumed and then 5 afresh loses 10. -/
theorem keepsLater_resumed_last :
    ∃ (activations : Activations) (before : List SchedulerOp) (candidate : FrozenCandidate),
      activations.Windowed candidate.activation ∧
        ¬ (SchedulerOp.applyAll activations before).KeepsLater activations candidate := by
  let activation := userMessageActivation 1 (by decide) (by decide)
  let activations : Activations := ⟨fun id => { activation with id }, fun _ => rfl⟩
  let before : List SchedulerOp :=
    [.enqueue (lateCandidate 10) false, .enqueue (lateCandidate 20) true]
  let state := SchedulerOp.applyAll activations before
  have hpending : ((state.queue (lateCandidate 5).key)[(10 : Nat)]?.map (·.resumed)) =
      some false := by
    decide
  have hfree : (state.queue (lateCandidate 5).key)[(5 : Nat)]?.isNone = true := by
    decide
  have hkeys : (state.queue (lateCandidate 5).key).keys = [10, 20] := by decide
  have hresumed : ((state.queue (lateCandidate 5).key)[(20 : Nat)]?.map (·.resumed)) =
      some true := by
    decide
  refine ⟨activations, before, lateCandidate 5, rfl, fun hkeeps => ?_⟩
  have hwindow : activations.Windowed (lateCandidate 5).activation := rfl
  rw [Option.map_eq_some_iff] at hpending
  obtain ⟨pending, hpending, hfresh⟩ := hpending
  rw [Option.map_eq_some_iff] at hresumed
  obtain ⟨resumed, hentry, hresumed⟩ := hresumed
  have hlast : (state.queue (lateCandidate 5).key).last? = some ((20 : Nat), resumed) := by
    obtain ⟨last, pending', hlast⟩ := PendingQueue.exists_last? hentry
    have hmem := PendingQueue.last?_eq_some hlast
    have hkey : last ∈ (state.queue (lateCandidate 5).key).keys := by
      rw [Std.ExtTreeMap.mem_keys, Std.ExtTreeMap.mem_iff_isSome_getElem?, hmem.1]
      rfl
    have hge := hmem.2 20 resumed hentry
    rw [hkeys, List.mem_cons, List.mem_singleton] at hkey
    have heq : last = (20 : Nat) := by
      rcases hkey with heq | heq
      · rw [heq] at hge
        exact absurd hge (by decide)
      · exact heq
    subst heq
    rw [hlast, ← Option.some.inj (hentry.symm.trans hmem.1)]
  have hhidden : state.Hidden (lateCandidate 5) := by
    refine ⟨Option.isNone_iff_eq_none.mp hfree, ?_, 10, pending, hpending, hfresh, by decide⟩
    rw [hlast]
    exact hresumed
  exact (keepsLater_iff hwindow).mp hkeeps hhidden

end Later

end Antiburn
