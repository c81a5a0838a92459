/-
Bounded candidate scheduling.

The state of the scheduler and what the engine does to it under its lock, one
definition for each lock section.  Pending candidates are ordered by key and, in
the queue of a key, by trigger position.
-/
import Antiburn.Lib.Saturating
import Antiburn.Selection

namespace Antiburn

def MAX_PENDING_CANDIDATES : Nat := 128

/-- Maximum number of evaluations active across all checks in this coordinator. -/
def MAX_IN_FLIGHT_EVALUATIONS : Nat := 4

inductive ExecutionPolicy where
  /-- Honor authored cooldown and coalesce only rolling-window candidates. -/
  | live
  /-- Drain one consumed event at a time without check cooldown. -/
  | sequentialReplay
  deriving DecidableEq

/-! ### Keys -/

structure ScheduleKey where
  activation : ActivationId
  branch : BranchId
  deriving DecidableEq

/-- Variant and payload, in the order the derived comparison reads them. -/
def RunScope.sortKey : RunScope → Nat × String
  | .live => (0, "")
  | .replay identity => (1, identity)

namespace ScheduleKey

/-- The derived order: activation fields from left to right, then the branch. -/
def cmp : ScheduleKey → ScheduleKey → Ordering :=
  compareLex (compareOn fun key => key.activation.scope.environment)
    (compareLex (compareOn fun key => key.activation.scope.sessionCwd)
      (compareLex (compareOn fun key => key.activation.scope.run.sortKey.1)
        (compareLex (compareOn fun key => key.activation.scope.run.sortKey.2)
          (compareLex (compareOn fun key => key.activation.definitionId)
            (compareLex (compareOn fun key => key.activation.generation)
              (compareOn fun key => key.branch))))))

instance : Ord ScheduleKey := ⟨cmp⟩

instance : Std.TransOrd ScheduleKey :=
  inferInstanceAs (Std.TransCmp (compareLex _ _))

instance : Std.LawfulEqOrd ScheduleKey where
  compare_self := by
    intro key
    show cmp key key = .eq
    simp only [cmp, compareLex, compareOn, Ordering.then_eq_eq, Std.ReflOrd.compare_self, and_self]
  eq_of_compare := by
    intro key key' h
    have h : cmp key key' = .eq := h
    simp only [cmp, compareLex, compareOn, Ordering.then_eq_eq] at h
    obtain ⟨henvironment, hcwd, hrun, hidentity, hdefinition, hgeneration, hbranch⟩ := h
    obtain ⟨⟨⟨environment, cwd, run⟩, definition, generation⟩, branch⟩ := key
    obtain ⟨⟨⟨environment', cwd', run'⟩, definition', generation'⟩, branch'⟩ := key'
    have hrun : run = run' := by
      have htag := Std.LawfulEqOrd.eq_of_compare hrun
      have hid := Std.LawfulEqOrd.eq_of_compare hidentity
      cases run with
      | live => cases run' with
        | live => rfl
        | replay => cases htag
      | replay identity => cases run' with
        | live => cases htag
        | replay identity' => exact congrArg RunScope.replay hid
    simp only [ScheduleKey.mk.injEq, ActivationId.mk.injEq, ActivationScope.mk.injEq]
    exact ⟨⟨⟨Std.LawfulEqOrd.eq_of_compare henvironment, Std.LawfulEqOrd.eq_of_compare hcwd, hrun⟩,
      Std.LawfulEqOrd.eq_of_compare hdefinition, Std.LawfulEqOrd.eq_of_compare hgeneration⟩,
      Std.LawfulEqOrd.eq_of_compare hbranch⟩

end ScheduleKey

def FrozenCandidate.key (candidate : FrozenCandidate) : ScheduleKey :=
  ⟨candidate.activation, candidate.branch⟩

/-- Stable identity of a frozen candidate: its fingerprint. -/
abbrev CandidateId := Vector UInt8 32

structure ClaimedCandidate where
  id : CandidateId
  candidate : FrozenCandidate
  priorStatus : Option StatusResult
  /-- Monotonic Store fence. -/
  fence : Nat

/-! ### State -/

structure PendingCandidate where
  candidate : FrozenCandidate
  compiled : CompiledCheck
  resumed : Bool

/-- Pending candidates of one key, by trigger position. -/
abbrev PendingQueue := Std.ExtTreeMap ObservationPosition PendingCandidate

structure SchedulerState where
  pending : Std.ExtTreeMap ScheduleKey PendingQueue := ∅
  inFlight : List ScheduleKey := []
  cooldownUntil : Std.ExtTreeMap ScheduleKey Nat := ∅
  serviceTickets : Std.ExtTreeMap ScheduleKey Nat := ∅
  nextServiceTicket : Nat := 0
  activeCount : Nat := 0
  recentDispatches : Nat := 0
  pendingReleases : Std.ExtTreeMap ScheduleKey ClaimedCandidate := ∅

/-- Explicit result of adding a frozen candidate to bounded pending state. -/
inductive EnqueueOutcome where
  /-- The candidate became the latest pending candidate for this branch. -/
  | queued
  /-- A previous pending candidate was replaced by this later trigger. -/
  | coalesced
  /-- The global pending bound is full and the candidate was not retained. -/
  | overflow
  deriving DecidableEq

namespace PendingQueue

/-- `last_key_value`. -/
def last? (queue : PendingQueue) : Option (ObservationPosition × PendingCandidate) :=
  queue.maxKey?.bind fun position => queue[position]?.map (position, ·)

/-- `first_key_value`. -/
def first? (queue : PendingQueue) : Option (ObservationPosition × PendingCandidate) :=
  queue.minKey?.bind fun position => queue[position]?.map (position, ·)

/-- Whether a candidate waits that no earlier run has started. -/
def hasFresh (queue : PendingQueue) : Bool := queue.toList.any fun (_, pending) => !pending.resumed

end PendingQueue

namespace SchedulerState

def queue (state : SchedulerState) (key : ScheduleKey) : PendingQueue :=
  (state.pending[key]?).getD ∅

def pendingCount (state : SchedulerState) : Nat :=
  (state.pending.toList.map fun (_, queue) => queue.size).sum

def issueTicket (state : SchedulerState) (key : ScheduleKey) : SchedulerState :=
  { state with
    nextServiceTicket := saturatingAdd state.nextServiceTicket 1
    serviceTickets := state.serviceTickets.insert key state.nextServiceTicket }

/-! ### Admission -/

/-- Admission of a candidate, once the queues have been pruned if they were full. -/
def enqueueWithResume (state : SchedulerState) (activation : EffectiveActivation) (candidate : FrozenCandidate)
    (resumed : Bool) : EnqueueOutcome × SchedulerState :=
  let key := candidate.key
  let coalesces := !resumed && activation.compiled.trigger.window.isSome
  let queue := state.queue key
  match queue[candidate.triggerPosition]? with
  | some existing =>
    let existing := { existing with resumed := existing.resumed || resumed }
    (.queued,
      { state with
        pending := state.pending.insert key (queue.insert candidate.triggerPosition existing) })
  | none =>
    let replaces := coalesces && queue.hasFresh
    let needsTicket := queue.isEmpty
    if !replaces && state.pendingCount ≥ MAX_PENDING_CANDIDATES then (.overflow, state)
    else if replaces && queue.last?.any fun (position, pending) =>
        !pending.resumed && candidate.triggerPosition < position then (.coalesced, state)
    else
      let queue := if replaces then queue.filter fun _ pending => pending.resumed else queue
      let queue :=
        queue.insert candidate.triggerPosition ⟨candidate, activation.compiled, resumed⟩
      let state := { state with pending := state.pending.insert key queue }
      let state := if needsTicket then state.issueTicket key else state
      (if replaces then .coalesced else .queued, state)

/-- `restore_pending`. -/
def restorePending (state : SchedulerState) (key : ScheduleKey) (pending : PendingCandidate) :
    SchedulerState :=
  let queue := state.queue key
  if !pending.resumed && pending.compiled.trigger.window.isSome && queue.hasFresh then state
  else
    { state with
      pending :=
        state.pending.insert key (queue.insertIfNew pending.candidate.triggerPosition pending) }

/-! ### Removal -/

/-- Drop what a change of activation makes obsolete. -/
def persistActivation (state : SchedulerState) (definitionId : String)
    (activation : Option EffectiveActivation) : SchedulerState :=
  let keeps (key : ScheduleKey) : Bool :=
    key.activation.definitionId != definitionId || activation.any fun value =>
      key.activation == value.id
  { state with
    pending := state.pending.filter fun key _ => keeps key
    cooldownUntil := state.cooldownUntil.filter fun key _ => keeps key
    pendingReleases := state.pendingReleases.filter fun key _ => keeps key }

def resetBranches (state : SchedulerState) (activation : EffectiveActivation)
    (branches : List BranchId) : SchedulerState :=
  { state with
    pending := state.pending.filter fun key _ =>
      key.activation != activation.id || !branches.contains key.branch }

def pruneTerminal (state : SchedulerState) (terminal : List CandidateId) : SchedulerState :=
  let pruned := state.pending.map fun _ queue =>
    queue.filter fun _ pending => !terminal.contains pending.candidate.fingerprint
  { state with
    pending := pruned.filter fun _ queue => !queue.isEmpty
    serviceTickets := state.serviceTickets.filter fun key _ =>
      !pruned[key]?.any fun queue => queue.isEmpty }

/-! ### Starting -/

def leastBy {α : Type} (less : α → α → Bool) : List α → Option α
  | [] => none
  | first :: rest => some (rest.foldl (fun best next => if less next best then next else best) first)

def dueKeys (state : SchedulerState) (policy : ExecutionPolicy) (activation : ActivationId)
    (now : Nat) (ready : BranchId → Bool) : List ScheduleKey :=
  state.pending.keys.filter fun key =>
    key.activation == activation && ready key.branch && !state.inFlight.contains key &&
      (policy == .sequentialReplay ||
        (state.queue key).first?.any (fun (_, pending) => pending.resumed) ||
        state.cooldownUntil[key]?.all fun limit => limit ≤ now)

def newest (state : SchedulerState) (key : ScheduleKey) : Option ObservationPosition :=
  (state.queue key).maxKey?

/-- The due key to serve: in source order, by ticket once in a while, or the newest. -/
def nextKey (state : SchedulerState) (policy : ExecutionPolicy) (due : List ScheduleKey) :
    Option ScheduleKey :=
  let ranked := due.filterMap fun key => (state.newest key).map (key, ·)
  let before (a b : ScheduleKey × ObservationPosition) : Bool :=
    a.2 < b.2 || (a.2 == b.2 && (compare a.1 b.1).isLT)
  if policy = .sequentialReplay then (leastBy before ranked).map (·.1)
  else if state.recentDispatches ≥ 3 then
    leastBy (fun a b =>
      match state.serviceTickets[a]?, state.serviceTickets[b]? with
      | none, some _ => true
      | some _, none => false
      | none, none => (compare a b).isLT
      | some ticket, some ticket' => ticket < ticket' || (ticket == ticket' && (compare a b).isLT))
      due
  else (leastBy (fun a b => before b a) ranked).map (·.1)

def reserve (state : SchedulerState) (policy : ExecutionPolicy) (activation : ActivationId)
    (now : Nat) (ready : BranchId → Bool) :
    Option (ScheduleKey × PendingCandidate) × SchedulerState :=
  if state.activeCount ≥ MAX_IN_FLIGHT_EVALUATIONS then (none, state)
  else
    let due := state.dueKeys policy activation now ready
    match (state.nextKey policy due).bind fun key =>
        (state.queue key).first?.map fun (_, pending) => (key, pending) with
    | none => (none, state)
    | some (key, pending) =>
      let queue := (state.queue key).erase pending.candidate.triggerPosition
      let remaining :=
        if queue.isEmpty then state.pending.erase key else state.pending.insert key queue
      (some (key, pending),
        { state with
          pending := remaining
          inFlight := if state.inFlight.contains key then state.inFlight else key :: state.inFlight
          activeCount := state.activeCount + 1 })

/-! ### Reserved keys -/

/-- `InFlightGuard::finish`: release the key. -/
def finish (state : SchedulerState) (key : ScheduleKey) : SchedulerState :=
  { state with
    inFlight := state.inFlight.filter (· != key)
    activeCount := state.activeCount - 1 }

/-- Drop of a guard that keeps its key reserved. -/
def abandon (state : SchedulerState) : SchedulerState :=
  { state with activeCount := state.activeCount - 1 }

/-- `defer_candidate`. -/
def deferCandidate (state : SchedulerState) (key : ScheduleKey) (pending : PendingCandidate)
    (retryAt : Nat) : SchedulerState :=
  { state with cooldownUntil := state.cooldownUntil.insert key retryAt }.restorePending key pending

/-- `clear_ticket_if_idle`. -/
def clearTicketIfIdle (state : SchedulerState) (key : ScheduleKey) : SchedulerState :=
  if (state.queue key).isEmpty then
    { state with serviceTickets := state.serviceTickets.erase key }
  else state

/-- `mark_scheduler_started`. -/
def markStarted (state : SchedulerState) (policy : ExecutionPolicy) (key : ScheduleKey) (now : Nat)
    (cooldown : Nat) : SchedulerState :=
  let state :=
    if (state.queue key).isEmpty then
      { state with serviceTickets := state.serviceTickets.erase key }
    else state.issueTicket key
  let state :=
    if policy = .live then
      { state with
        recentDispatches := if state.recentDispatches ≥ 3 then 0 else state.recentDispatches + 1 }
    else state
  { state with cooldownUntil := state.cooldownUntil.insert key (saturatingAdd now cooldown) }

def holdRelease (state : SchedulerState) (key : ScheduleKey) (claimed : ClaimedCandidate) :
    SchedulerState :=
  { state with pendingReleases := state.pendingReleases.insert key claimed }

def clearRelease (state : SchedulerState) (key : ScheduleKey) : SchedulerState :=
  { state with pendingReleases := state.pendingReleases.erase key }

end SchedulerState

end Antiburn
