/-
Runs of the coordinator.

The engine is its scheduler, the evaluations it has reserved and the durable rows
of the store.  An operation is one lock section or one stretch of an evaluation;
those of different callers interleave.  The replies of the store and the provider
are part of the operations, so a run is any run against any replies that keep the
contract of the store.
-/
import Antiburn.Coalescing
import Antiburn.EvaluationTasks

namespace Antiburn

variable [Platform]

/-! ### State and operations -/

structure EngineState where
  scheduler : SchedulerState
  /-- The reserved evaluations, and those that have ended and keep their key. -/
  tasks : List EvaluationTask
  rows : DurableRows

def EngineState.fresh (rows : DurableRows) : EngineState := ⟨{}, [], rows⟩

/-- Operations on one evaluation. -/
inductive TaskOp where
  | releasePrevious (reply : ClaimReply)
  | claimDue (reply : ClaimDueReply)
  | start (replies : LocalStartReplies) (replies' : ModelStartReplies)
  | runLocal (replies : LocalReplies)
  | turn (replies : TurnReplies)
  | settle (replies : SettlementReplies)
  | drop (released : ClaimReply)

inductive EngineOp where
  | enqueue (activation : EffectiveActivation) (candidate : FrozenCandidate) (resumed : Bool)
  | prune (terminal : List CandidateId)
  | persistActivation (definitionId : String) (activation : Option EffectiveActivation)
  | resetBranches (activation : EffectiveActivation) (branches : List BranchId)
  /-- A start reserves a candidate. -/
  | reserve (activation : EffectiveActivation) (nowUnixMs maximumNewIntents : Nat)
      (ready : BranchId → Bool)
  | task (index : Nat) (op : TaskOp)
  /-- The process restarts; the store may recover interrupted attempts. -/
  | restart (recovers : Bool)

structure EngineLabel where
  op : EngineOp
  events : List EngineEvent

/-! ### Steps -/

namespace EvaluationTask

/-- The stretch that an operation runs, where the task is at its beginning. -/
def apply (engine : CheckEngine) (task : EvaluationTask) (scheduler : SchedulerState)
    (rows : DurableRows) : TaskOp → Option TaskStep
  | .releasePrevious reply =>
    match task.phase with
    | .reserved => some (task.releasePrevious scheduler rows reply)
    | _ => none
  | .claimDue reply =>
    match task.phase with
    | .claiming => some (task.claimDue scheduler rows reply)
    | _ => none
  | .start replies replies' =>
    match task.phase with
    | .claimed claimed =>
      some (if task.pending.compiled.isLocal then task.startLocal engine scheduler rows claimed replies
        else task.startModel engine scheduler rows claimed replies')
    | _ => none
  | .runLocal replies =>
    match task.phase with
    | .localWork _ => some (task.runLocal scheduler rows replies)
    | _ => none
  | .turn replies =>
    match task.phase with
    | .ready run => some (task.turn engine scheduler rows run replies)
    | _ => none
  | .settle replies =>
    match task.phase with
    | .awaiting run attempt => some (task.settle engine scheduler rows run attempt replies)
    | _ => none
  | .drop released => task.dropped scheduler rows released

def MeetsContract (task : EvaluationTask) (rows : DurableRows) : TaskOp → Prop
  | .start _ replies => ∀ progress, replies.loaded = .ok progress →
      progress.Perm (rows.of task.pending.candidate)
  | _ => True

end EvaluationTask

def SchedulerState.slots (state : SchedulerState) : List ScheduleSlot :=
  state.pending.toList.flatMap fun (key, queue) => queue.toList.map fun (position, _) => (key, position)

def SchedulerState.holds (state : SchedulerState) (slot : ScheduleSlot) : Bool :=
  (state.queue slot.1).contains slot.2

/-- The slots that lose their candidates. -/
def SchedulerState.vacated (before after : SchedulerState) (departure : Departure) :
    List EngineEvent :=
  (before.slots.filter fun slot => !after.holds slot).map (.left · departure)

/-- Attempts that a restart finds without a settlement. -/
def DurableRows.recovered (rows : DurableRows) : DurableRows := fun key id =>
  (rows key id).map settleUnknown

namespace EngineState

/-- A lock section outside the evaluations. -/
def schedule (state : EngineState) (scheduler : SchedulerState) (departure : Departure)
    (events : List EngineEvent := []) : EngineState × List EngineEvent :=
  ({ state with scheduler }, events ++ state.scheduler.vacated scheduler departure)

def advance (state : EngineState) (index : Nat) (step : TaskStep) :
    EngineState × List EngineEvent :=
  (⟨step.scheduler,
    match step.next with
    | some task => state.tasks.set index task
    | none => state.tasks.eraseIdx index,
    step.rows⟩, step.events)

/-- What an operation does, if it can happen. -/
def apply (engine : CheckEngine) (state : EngineState) :
    EngineOp → Option (EngineState × List EngineEvent)
  | .enqueue activation candidate resumed =>
    let (outcome, scheduler) := state.scheduler.enqueueWithResume activation candidate resumed
    some (state.schedule scheduler .coalesced
      (if outcome = .queued then [.queued candidate] else []))
  | .prune terminal => some (state.schedule (state.scheduler.pruneTerminal terminal) .pruned)
  | .persistActivation definitionId activation =>
    some (state.schedule (state.scheduler.persistActivation definitionId activation) .dropped)
  | .resetBranches activation branches =>
    some (state.schedule (state.scheduler.resetBranches activation branches) .reset)
  | .reserve activation nowUnixMs maximumNewIntents ready =>
    match state.scheduler.reserve engine.policy activation.id nowUnixMs ready with
    | (none, _) => some (state, [])
    | (some (key, pending), scheduler) =>
      some ({ state with
        scheduler
        tasks := ⟨key, pending, activation, nowUnixMs, maximumNewIntents, .reserved⟩ ::
          state.tasks }, [])
  | .task index op =>
    (state.tasks[index]?).bind fun task =>
      (task.apply engine state.scheduler state.rows op).map (state.advance index)
  | .restart recovers =>
    some (⟨{}, [], if recovers then state.rows.recovered else state.rows⟩,
      (state.scheduler.slots ++ state.tasks.map (·.pending.candidate.slot)).map
        (.left · .restarted))

def MeetsContract (state : EngineState) : EngineOp → Prop
  | .task index op => ∀ task, state.tasks[index]? = some task → task.MeetsContract state.rows op
  | _ => True

end EngineState

/-- The machine of the coordinator over any store that keeps its contract. -/
def checkEngine (engine : CheckEngine) : Machine EngineState EngineLabel where
  step before label after := before.MeetsContract label.op ∧
    before.apply engine label.op = some (after, label.events)

end Antiburn
