/-
The scan queue.

Hints that a source has changed are coalesced by its key, and a key is scanned by
one task at a time.  Fifteen slots serve all work, the last one live work only.
Three of four dispatches take the most recent activity and the fourth one takes
the oldest ticket: that is what bounds the wait of a ticket (`no_starvation`).
-/
import Antiburn.Lib.Machine
import Antiburn.Lib.Saturating
import Antiburn.Lib.Tally

namespace Antiburn

def SHARED_SLOTS : Nat := 15
def TOTAL_SLOTS : Nat := 16

structure RecentFirstTurns where
  recentDispatches : Nat := 0
  bounded : recentDispatches ≤ 3 := by decide

def RecentFirstTurns.isFairTurn (turns : RecentFirstTurns) : Bool := turns.recentDispatches == 3

def RecentFirstTurns.dispatched (turns : RecentFirstTurns) : RecentFirstTurns where
  recentDispatches := (turns.recentDispatches + 1) % 4
  bounded := Nat.le_of_lt_succ (Nat.mod_lt _ (by decide))

inductive WorkOrigin where
  | pass
  | live
  | recovery
  deriving DecidableEq

structure QueueInput (α : Type) where
  key : String
  payload : α
  activity : Option Int
  observedAtEpoch : Int
  observedAt : Nat
  origin : WorkOrigin
  live : Bool

structure QueuedWork (α : Type) where
  key : String
  payload : α
  activity : Option Int
  priority : Option Int
  generation : Nat
  ticket : Nat
  enqueuedAt : Nat
  dirtiedAt : Nat
  origin : WorkOrigin
  live : Bool

inductive DispatchLane where
  | shared
  | reservedLive
  deriving DecidableEq

structure ScanQueue.Dispatch (α : Type) where
  work : QueuedWork α
  lane : DispatchLane

structure RunningWork where
  generation : Nat
  lane : DispatchLane
  origin : WorkOrigin

structure ScanQueue (α : Type) where
  pending : Tally String (QueuedWork α) := ∅
  running : Tally String RunningWork := ∅
  turns : RecentFirstTurns := {}
  nextGeneration : Nat := 0
  nextTicket : Nat := 0
  sharedRunning : Nat := 0

variable {α : Type}

def QueueInput.priority (input : QueueInput α) : Option Int :=
  input.activity.map fun at_ => min at_ input.observedAtEpoch

/-- `Iterator::min_by`: the first of the least elements. -/
def minBy {β : Type} (cmp : β → β → Ordering) : List β → Option β
  | [] => none
  | first :: rest =>
    match minBy cmp rest with
    | none => some first
    | some least => if cmp first least = .gt then some least else some first

namespace ScanQueue

/-- A hint for a key that waits. -/
def coalesce (pending : QueuedWork α) (input : QueueInput α) (generation : Nat) : QueuedWork α :=
  { pending with
    payload := input.payload
    activity := input.activity
    priority := input.priority
    generation
    dirtiedAt := input.observedAt
    live := pending.live || input.live
    origin :=
      if input.origin = .recovery ∨ (input.origin = .pass ∧ pending.origin ≠ .recovery) then
        input.origin
      else pending.origin }

/-- Work waits under its key from now on. -/
def store (queue : ScanQueue α) (key : String) (work : QueuedWork α) (nextTicket : Nat) :
    ScanQueue α :=
  { queue with
    nextGeneration := work.generation
    nextTicket
    pending := queue.pending.insert key work }

/-- `none` is the panic of an exhausted counter. -/
def enqueue (queue : ScanQueue α) (input : QueueInput α) : Option (Nat × ScanQueue α) :=
  if queue.nextGeneration = U64_MAX then none
  else
    let generation := queue.nextGeneration + 1
    match queue.pending.lookup input.key with
    | some pending =>
      let work := coalesce pending input generation
      some (generation, queue.store input.key work queue.nextTicket)
    | none =>
      if queue.nextTicket = U64_MAX then none
      else
        let ticket := queue.nextTicket + 1
        let work : QueuedWork α :=
          { key := input.key
            payload := input.payload
            activity := input.activity
            priority := input.priority
            generation
            ticket
            enqueuedAt := input.observedAt
            dirtiedAt := input.observedAt
            origin := input.origin
            live := input.live }
        some (generation, queue.store input.key work ticket)

def eligible (queue : ScanQueue α) (lane : DispatchLane) : List ((_ : String) × QueuedWork α) :=
  queue.pending.entries.filter fun entry =>
    (queue.running.lookup entry.1).isNone && (lane == .shared || entry.2.live)

/-- The oldest ticket first on a fair turn, else the most recent activity. -/
def compareWork (fair : Bool) (left right : (_ : String) × QueuedWork α) : Ordering :=
  if fair then (compare left.2.ticket right.2.ticket).then (compare left.1 right.1)
  else (compare right.2.priority left.2.priority).then (compare left.1 right.1)

def lane (queue : ScanQueue α) : DispatchLane :=
  if queue.sharedRunning < SHARED_SLOTS then .shared else .reservedLive

/-- Work leaves for a task. -/
def take (queue : ScanQueue α) (key : String) (work : QueuedWork α) : ScanQueue α :=
  { queue with
    pending := queue.pending.erase key
    running := queue.running.insert key ⟨work.generation, queue.lane, work.origin⟩
    sharedRunning :=
      if queue.lane = .shared then queue.sharedRunning + 1 else queue.sharedRunning
    turns := if queue.lane = .shared then queue.turns.dispatched else queue.turns }

def dispatch (queue : ScanQueue α) : Option (Dispatch α × ScanQueue α) :=
  if TOTAL_SLOTS ≤ queue.running.size then none
  else
    let fair := queue.lane == .shared && queue.turns.isFairTurn
    (minBy (compareWork fair) (queue.eligible queue.lane)).map fun entry =>
      (⟨entry.2, queue.lane⟩, queue.take entry.1 entry.2)

/-- A task gives its slot back. -/
def finish (queue : ScanQueue α) (key : String) (running : RunningWork) : ScanQueue α :=
  { queue with
    running := queue.running.erase key
    sharedRunning :=
      if running.lane = .shared then queue.sharedRunning - 1 else queue.sharedRunning }

def release (queue : ScanQueue α) (key : String) (generation : Nat) : Bool × ScanQueue α :=
  match queue.running.lookup key with
  | none => (false, queue)
  | some running =>
    if running.generation ≠ generation then (false, queue) else (true, queue.finish key running)

end ScanQueue

/-- The calls with what they returned; `idle` is a dispatch of nothing. -/
inductive ScanLabel (α : Type) where
  | enqueue (input : QueueInput α) (generation : Nat)
  | dispatch (dispatched : ScanQueue.Dispatch α)
  | idle
  | release (key : String) (generation : Nat) (released : Bool)

def scanQueue : Machine (ScanQueue α) (ScanLabel α) where
  step before label after :=
    match label with
    | .enqueue input generation => before.enqueue input = some (generation, after)
    | .dispatch dispatch => before.dispatch = some (dispatch, after)
    | .idle => before.dispatch = none ∧ after = before
    | .release key generation released => before.release key generation = (released, after)

/-! ### One key -/

/-- What a key is owed: the last hint that was not dispatched, and the generation that a task
scans. -/
structure KeyState (α : Type) where
  hint : Option (QueueInput α × Nat) := none
  scanning : Option Nat := none

def KeyState.next (key : String) (state : KeyState α) : ScanLabel α → KeyState α
  | .enqueue input generation =>
    if input.key = key then { state with hint := some (input, generation) } else state
  | .dispatch dispatch =>
    if dispatch.work.key = key then ⟨none, some dispatch.work.generation⟩ else state
  | .release other _ released =>
    if other = key ∧ released = true then { state with scanning := none } else state
  | .idle => state

def keyState (key : String) (labels : List (ScanLabel α)) : KeyState α :=
  labels.foldl (KeyState.next key) {}

/-- The work is the hint. -/
structure QueuedWork.Shows (work : QueuedWork α) (hint : QueueInput α × Nat) : Prop where
  payload : work.payload = hint.1.payload
  activity : work.activity = hint.1.activity
  generation : work.generation = hint.2
  live : hint.1.live = true → work.live = true

/-- What a call may return after the calls before it. -/
def ScanLabel.Allowed (before : List (ScanLabel α)) : ScanLabel α → Prop
  | .enqueue _ generation => ∀ other earlier, .enqueue other earlier ∈ before → earlier < generation
  | .dispatch ⟨work, lane⟩ =>
    (∃ hint, (keyState work.key before).hint = some hint ∧ work.Shows hint) ∧
      (keyState work.key before).scanning = none ∧ (lane = .reservedLive → work.live = true)
  | .release key generation released =>
    released = true ↔ (keyState key before).scanning = some generation
  | .idle => True

namespace ScanQueue

/-- The slots of a lane that are taken. -/
def slots (queue : ScanQueue α) (lane : DispatchLane) : Nat :=
  Tally.weigh (fun _ running => if running.lane = lane then 1 else 0) queue.running

/-- **The invariant**: the queue is what the calls leave, key by key, within its slots. -/
structure Sound (labels : List (ScanLabel α)) (queue : ScanQueue α) : Prop where
  pending : ∀ key, Option.Rel QueuedWork.Shows (queue.pending.lookup key) (keyState key labels).hint
  running : ∀ key, (queue.running.lookup key).map RunningWork.generation =
    (keyState key labels).scanning
  generations : ∀ input generation, .enqueue input generation ∈ labels →
    generation ≤ queue.nextGeneration
  tickets : ∀ key work, queue.pending.lookup key = some work →
    work.key = key ∧ work.ticket ≤ queue.nextTicket
  distinct : ∀ key key' work work', queue.pending.lookup key = some work →
    queue.pending.lookup key' = some work' → work.ticket = work'.ticket → key = key'
  shared : queue.sharedRunning = queue.slots .shared
  sharedSlots : queue.slots .shared ≤ SHARED_SLOTS
  reservedSlots : queue.slots .reservedLive ≤ 1

variable {queue after : ScanQueue α} {labels : List (ScanLabel α)}

/-! ### What a call does -/

lemma minBy_spec {β : Type} {cmp : β → β → Ordering} {rank : β → Nat}
    (hgt : ∀ a b, cmp a b = .gt → rank b ≤ rank a) (hle : ∀ a b, cmp a b ≠ .gt → rank a ≤ rank b)
    {items : List β} {least : β} (h : minBy cmp items = some least) :
    least ∈ items ∧ ∀ item ∈ items, rank least ≤ rank item := by
  induction items generalizing least with
  | nil => cases h
  | cons first rest ih =>
    rw [minBy] at h
    cases hrest : minBy cmp rest with
    | none =>
      cases rest with
      | nil => simp_all [minBy]
      | cons => grind [minBy]
    | some found =>
      obtain ⟨hmem, hleast⟩ := ih hrest
      grind

lemma minBy_mem {β : Type} {cmp : β → β → Ordering} {items : List β} {least : β}
    (h : minBy cmp items = some least) : least ∈ items :=
  (@minBy_spec _ _ (fun _ => 0) (fun _ _ _ => le_rfl) (fun _ _ _ => le_rfl) _ _ h).1

lemma minBy_ne_none {β : Type} {cmp : β → β → Ordering} {items : List β} {item : β}
    (hmem : item ∈ items) : minBy cmp items ≠ none := by
  cases items with
  | nil => cases hmem
  | cons first rest =>
    rw [minBy]
    split
    · exact Option.some_ne_none _
    · split <;> exact Option.some_ne_none _

lemma mem_eligible {lane : DispatchLane} {key : String} {work : QueuedWork α} :
    ⟨key, work⟩ ∈ queue.eligible lane ↔ queue.pending.lookup key = some work ∧
      queue.running.lookup key = none ∧ (lane = .shared ∨ work.live = true) := by
  rw [eligible, List.mem_filter, ← Option.mem_def, AList.mem_lookup_iff]
  simp

/-- **A hint** replaces the work of its key, or takes a fresh ticket. -/
lemma enqueue_cases {input : QueueInput α} {generation : Nat}
    (h : queue.enqueue input = some (generation, after)) :
    generation = queue.nextGeneration + 1 ∧ ∃ work ticket,
      work.Shows (input, generation) ∧ after = queue.store input.key work ticket ∧
      ((∃ old, queue.pending.lookup input.key = some old ∧ work.key = old.key ∧
          work.ticket = old.ticket ∧ ticket = queue.nextTicket) ∨
        queue.pending.lookup input.key = none ∧ work.key = input.key ∧
          work.ticket = queue.nextTicket + 1 ∧ ticket = queue.nextTicket + 1) := by
  unfold enqueue at h
  split at h
  · cases h
  · dsimp only at h
    split at h
    · next old hold =>
      cases h
      refine ⟨rfl, coalesce old input _, _, ⟨rfl, rfl, rfl, fun hlive => ?_⟩, rfl,
        .inl ⟨old, hold, rfl, rfl, rfl⟩⟩
      show (old.live || input.live) = true
      rw [hlive, Bool.or_true]
    · next hnone =>
      split at h
      · cases h
      · cases h
        exact ⟨rfl, _, _, ⟨rfl, rfl, rfl, id⟩, rfl, .inr ⟨hnone, rfl, rfl, rfl⟩⟩

/-- **A dispatch** takes work that waits and whose key is idle, on a fair turn the oldest. -/
lemma dispatch_cases {dispatched : Dispatch α} (h : queue.dispatch = some (dispatched, after)) :
    queue.running.size < TOTAL_SLOTS ∧ ∃ key work, dispatched = ⟨work, queue.lane⟩ ∧
      queue.pending.lookup key = some work ∧ queue.running.lookup key = none ∧
      (queue.lane = .shared ∨ work.live = true) ∧
      (queue.lane = .shared → queue.turns.recentDispatches = 3 → ∀ other waiting,
        queue.pending.lookup other = some waiting → queue.running.lookup other = none →
          work.ticket ≤ waiting.ticket) ∧
      after = queue.take key work := by
  unfold dispatch at h
  split at h
  · cases h
  rename_i hfull
  obtain ⟨⟨key, work⟩, hchosen, hentry⟩ := Option.map_eq_some_iff.mp h
  cases hentry
  obtain ⟨hpending, hidle, hlive⟩ := mem_eligible.mp (minBy_mem hchosen)
  refine ⟨Nat.not_le.mp hfull, key, work, rfl, hpending, hidle, hlive, ?_, rfl⟩
  intro hlane hfair other waiting hwaiting hother
  have hturn : (queue.lane == .shared && queue.turns.isFairTurn) = true := by
    simp [hlane, hfair, RecentFirstTurns.isFairTurn]
  rw [hturn] at hchosen
  -- on a fair turn tickets decide before keys
  refine (@minBy_spec _ _ (fun entry => entry.2.ticket) ?_ ?_ _ _ hchosen).2 ⟨other, waiting⟩
    (mem_eligible.mpr ⟨hwaiting, hother, .inl hlane⟩)
  · intro a b hgt
    rw [compareWork, if_pos rfl, Ordering.then_eq_gt] at hgt
    rcases hgt with hgt | ⟨heq, -⟩
    · exact (Nat.compare_eq_gt.mp hgt).le
    · exact (Nat.compare_eq_eq.mp heq).ge
  · intro a b hgt
    rw [compareWork, if_pos rfl, Ne, Ordering.then_eq_gt, not_or] at hgt
    exact Nat.not_lt.mp fun hlt => hgt.1 (Nat.compare_eq_gt.mpr hlt)

lemma dispatch_ne_none {key : String} {work : QueuedWork α}
    (hsize : queue.running.size < TOTAL_SLOTS) (hfound : queue.pending.lookup key = some work)
    (hidle : queue.running.lookup key = none) (hlane : queue.lane = .shared ∨ work.live = true) :
    queue.dispatch ≠ none := by
  rw [dispatch, if_neg (Nat.not_le.mpr hsize)]
  apply mt Option.map_eq_none_iff.mp
  exact minBy_ne_none (mem_eligible.mpr ⟨hfound, hidle, hlane⟩)

/-- **A release** takes the task off that scans this generation of the key, and nothing else. -/
lemma release_cases {key : String} {generation : Nat} {released : Bool}
    (h : queue.release key generation = (released, after)) :
    (released = true ↔ (queue.running.lookup key).map RunningWork.generation = some generation) ∧
      (released = false → after = queue) ∧
      (released = true → ∃ running, queue.running.lookup key = some running ∧
        after = queue.finish key running) := by
  unfold release at h
  split at h
  · next hnone =>
    cases h
    simp [hnone]
  · next running hrunning =>
    split at h
    · next hgeneration =>
      cases h
      simp [hrunning, hgeneration]
    · next hgeneration =>
      cases h
      rw [hrunning, Option.map_some, not_not.mp hgeneration]
      exact ⟨iff_of_true rfl rfl, (fun h => by cases h), fun _ => ⟨running, rfl, rfl⟩⟩

/-! ### Runs -/

lemma keyState_append (key : String) (labels : List (ScanLabel α)) (label : ScanLabel α) :
    keyState key (labels ++ [label]) = (keyState key labels).next key label := by
  simp [keyState]

lemma size_running (queue : ScanQueue α) :
    queue.running.size = queue.slots .shared + queue.slots .reservedLive := by
  unfold Tally.size slots Tally.weigh
  induction queue.running.entries with
  | nil => rfl
  | cons entry rest ih =>
    rw [List.length_cons, ih]
    cases hlane : entry.2.lane <;> simp [hlane] <;> omega

lemma Sound.enqueue (h : Sound labels queue) {input : QueueInput α} {generation : Nat}
    (hcall : queue.enqueue input = some (generation, after)) :
    (ScanLabel.enqueue input generation).Allowed labels ∧
      Sound (labels ++ [.enqueue input generation]) after := by
  obtain ⟨rfl, work, ticket, hshows, rfl, hticket⟩ := enqueue_cases hcall
  obtain ⟨hpending, hrunning, hgenerations, htickets, hdistinct, hshared, hslots, hreserved⟩ := h
  have hgeneration : work.generation = queue.nextGeneration + 1 := hshows.generation
  refine ⟨fun other earlier hmem => Nat.lt_succ_of_le (hgenerations other earlier hmem), ?_⟩
  rw [store]
  refine ⟨fun key => ?_, ?_, ?_, ?_, ?_, hshared, hslots, hreserved⟩
  · rw [keyState_append, KeyState.next, Tally.lookup_insert_eq_ite]
    by_cases hkey : key = input.key
    · rw [if_pos hkey, if_pos hkey.symm]
      exact .some hshows
    · rw [if_neg hkey, if_neg (Ne.symm hkey)]
      exact hpending key
  all_goals grind [keyState_append, KeyState.next, Tally.lookup_insert_eq_ite]

lemma Sound.dispatch (h : Sound labels queue) {dispatched : Dispatch α}
    (hcall : queue.dispatch = some (dispatched, after)) :
    (ScanLabel.dispatch dispatched).Allowed labels ∧
      Sound (labels ++ [.dispatch dispatched]) after := by
  obtain ⟨hsize, key, work, rfl, hfound, hidle, hlive, -, hafter⟩ := dispatch_cases hcall
  obtain ⟨hpending, hrunning, hgenerations, htickets, hdistinct, hshared, hslots, hreserved⟩ := h
  obtain ⟨rfl, -⟩ := htickets key work hfound
  constructor
  · refine ⟨?_, by simp [← hrunning, hidle], fun hlane => hlive.resolve_left (by simp [hlane])⟩
    have hhint := hpending work.key
    rw [hfound] at hhint
    generalize (keyState work.key labels).hint = hint at hhint ⊢
    cases hhint with
    | some hshows => exact ⟨_, rfl, hshows⟩
  -- a slot of the lane is taken, and the reserved one only where the others are
  rw [take] at hafter
  have hsize' := queue.size_running
  have hlane : queue.lane = if queue.sharedRunning < 15 then .shared else .reservedLive := rfl
  have hslots' : ∀ lane, after.slots lane =
      (if queue.lane = lane then 1 else 0) + queue.slots lane := by
    intro lane
    rw [hafter]
    exact Tally.weigh_insert_new hidle
  refine ⟨fun key => ?_, ?_, ?_, ?_, ?_, ?_, ?_, ?_⟩
  · rw [keyState_append, KeyState.next, hafter, Tally.lookup_erase_eq_ite]
    by_cases hkey : key = work.key
    · rw [if_pos hkey, if_pos hkey.symm]
      exact .none
    · rw [if_neg hkey, if_neg (Ne.symm hkey)]
      exact hpending key
  all_goals grind [keyState_append, KeyState.next, Tally.lookup_erase_eq_ite,
    Tally.lookup_insert_eq_ite, TOTAL_SLOTS, SHARED_SLOTS]

lemma Sound.release (h : Sound labels queue) {key : String} {generation : Nat} {released : Bool}
    (hcall : queue.release key generation = (released, after)) :
    (ScanLabel.release (α := α) key generation released).Allowed labels ∧
      Sound (labels ++ [.release key generation released]) after := by
  obtain ⟨hreleased, hstays, hgoes⟩ := release_cases hcall
  obtain ⟨hpending, hrunning, hgenerations, htickets, hdistinct, hshared, hslots, hreserved⟩ := h
  rw [hrunning] at hreleased
  refine ⟨hreleased, ?_⟩
  cases released with
  | false =>
    rw [hstays rfl]
    constructor <;> grind [keyState_append, KeyState.next]
  | true =>
    obtain ⟨running, hfound, hafter⟩ := hgoes rfl
    rw [finish] at hafter
    have hslots' : ∀ lane, queue.slots lane =
        (if running.lane = lane then 1 else 0) + after.slots lane := by
      intro lane
      rw [hafter]
      exact Tally.weigh_erase hfound
    constructor <;> grind [keyState_append, KeyState.next, Tally.lookup_erase_eq_ite]

lemma Sound.step {label : ScanLabel α} (h : Sound labels queue)
    (hstep : scanQueue.step queue label after) :
    label.Allowed labels ∧ Sound (labels ++ [label]) after := by
  cases label with
  | enqueue input generation => exact h.enqueue hstep
  | dispatch dispatched => exact h.dispatch hstep
  | release key generation released => exact h.release hstep
  | idle =>
    obtain ⟨-, rfl⟩ := hstep
    obtain ⟨hpending, hrunning, hgenerations, htickets, hdistinct, hshared, hslots, hreserved⟩ := h
    refine ⟨trivial, ?_⟩
    constructor <;> grind [keyState_append, KeyState.next]

lemma Sound.empty : Sound [] ({} : ScanQueue α) where
  pending _ := .none
  running _ := rfl
  generations _ _ hmem := by cases hmem
  tickets _ _ h := by cases h
  distinct _ _ _ _ h := by cases h
  shared := rfl
  sharedSlots := Nat.zero_le _
  reservedSlots := Nat.zero_le _

lemma sound_run (hrun : scanQueue.Run {} labels queue) : Sound labels queue :=
  Machine.Run.trace_invariant (P := fun _ => True) (I := Sound)
    (fun _ _ _ _ _ hstep h => (h.step hstep).2) hrun (fun _ _ => trivial) Sound.empty

/-- **The queue keeps the latest hint of every key.**  In every run a dispatch hands out the last
hint of its key that was not handed out, and only while no task scans the key; what waits at the
end is what was not handed out; a release is heeded exactly if it names the generation that is
scanned; and fifteen tasks share their slots with all work, one slot with live work only. -/
theorem scan_queue_keeps_latest_hints (hrun : scanQueue.Run {} labels queue) :
    (∀ before label rest, labels = before ++ label :: rest → label.Allowed before) ∧
      (∀ key, Option.Rel QueuedWork.Shows (queue.pending.lookup key) (keyState key labels).hint) ∧
      queue.sharedRunning = queue.slots .shared ∧ queue.slots .shared ≤ SHARED_SLOTS ∧
      queue.running.size ≤ TOTAL_SLOTS := by
  have hsound := sound_run hrun
  refine ⟨?_, hsound.pending, hsound.shared, hsound.sharedSlots, ?_⟩
  · rintro before label rest rfl
    obtain ⟨mid, hbefore, hrest⟩ := hrun.of_append
    obtain ⟨next, hstep, -⟩ := hrest.of_cons
    exact ((sound_run hbefore).step hstep).1
  · rw [size_running]
    exact Nat.add_le_add hsound.sharedSlots hsound.reservedSlots

def quietHint : QueueInput Unit := ⟨"native/pi/quiet", (), none, 0, 0, .pass, false⟩

/-- A hint is handed out, and nothing waits then. -/
theorem scan_queue_keeps_latest_hints_quiet : ∃ (dispatched : Dispatch Unit)
    (queue : ScanQueue Unit),
    scanQueue.Run {} [.enqueue quietHint 1, .dispatch dispatched] queue ∧
      queue.sharedRunning = 1 ∧ queue.sharedRunning = queue.slots .shared := by
  have hrun : scanQueue.Run ({} : ScanQueue Unit) [.enqueue quietHint 1, .dispatch _] _ :=
    .cons (show ({} : ScanQueue Unit).enqueue quietHint = some (1, _) from rfl)
      (.single (show dispatch _ = some (_, _) from rfl))
  exact ⟨_, _, hrun, rfl, (scan_queue_keeps_latest_hints hrun).2.2.1⟩

/-! ### Fairness -/

/-- The work that waits with an older ticket. -/
def older (queue : ScanQueue α) (ticket : Nat) : Nat :=
  Tally.weigh (fun _ work => if work.ticket < ticket then 1 else 0) queue.pending

/-- The shared dispatches that a ticket can still be passed over by. -/
def patience (queue : ScanQueue α) (ticket : Nat) : Nat :=
  4 * queue.older ticket + (3 - queue.turns.recentDispatches)

/-- The key waits, and no task scans it. -/
def Waits (queue : ScanQueue α) (key : String) (ticket : Nat) : Prop :=
  (queue.pending.lookup key).map QueuedWork.ticket = some ticket ∧ queue.running.lookup key = none

def sharedDispatch : ScanLabel α → Nat
  | .dispatch dispatched => if dispatched.lane = .shared then 1 else 0
  | _ => 0

/-- **A shared dispatch of another key costs patience**: the turn comes nearer, or an older ticket
is served. -/
lemma Waits.step {key : String} {ticket : Nat} {label : ScanLabel α} (h : Sound labels queue)
    (hwaits : queue.Waits key ticket) (hstep : scanQueue.step queue label after)
    (hother : ∀ dispatched, label = .dispatch dispatched → dispatched.work.key ≠ key) :
    after.Waits key ticket ∧
      sharedDispatch label + after.patience ticket ≤ queue.patience ticket := by
  obtain ⟨hpending, hidle⟩ := hwaits
  obtain ⟨waiting, hfound, rfl⟩ := Option.map_eq_some_iff.mp hpending
  have hle := (h.tickets key waiting hfound).2
  have hturns := queue.turns.bounded
  let weight := fun (_ : String) (work : QueuedWork α) => if work.ticket < waiting.ticket then 1 else 0
  cases label with
  | enqueue input generation =>
    obtain ⟨-, work, ticket, -, rfl, hticket⟩ := enqueue_cases hstep
    -- a coalesced hint keeps its ticket, and a fresh ticket is no older one
    have holder : (queue.store input.key work ticket).older waiting.ticket =
        queue.older waiting.ticket := by
      rcases hticket with ⟨old, hold, -, hsame, -⟩ | ⟨hnone, -, hnew, -⟩
      · have hweigh := @Tally.weigh_insert_old _ _ _ weight _ _ work _ hold
        simp only [weight, hsame] at hweigh
        exact Nat.add_right_cancel (hweigh.trans (Nat.add_comm _ _))
      · refine (Tally.weigh_insert_new hnone).trans ?_
        rw [if_neg (by omega), Nat.zero_add]
        rfl
    grind [Waits, patience, sharedDispatch, store, Tally.lookup_insert_eq_ite]
  | dispatch dispatched =>
    obtain ⟨-, other, work, rfl, hwork, -, -, hfair, hafter⟩ := dispatch_cases hstep
    obtain ⟨rfl, -⟩ := h.tickets other work hwork
    rw [take] at hafter
    have hne : work.key ≠ key := hother _ rfl
    have holder : queue.older waiting.ticket = weight key work + after.older waiting.ticket := by
      rw [hafter]
      exact Tally.weigh_erase hwork
    have hserved : queue.lane = .shared → queue.turns.recentDispatches = 3 →
        work.ticket < waiting.ticket := fun hlane hthree =>
      lt_of_le_of_ne (hfair hlane hthree key waiting hfound hidle)
        fun heq => hne (h.distinct _ _ _ _ hwork hfound heq)
    grind [Waits, patience, sharedDispatch, RecentFirstTurns.dispatched,
      Tally.lookup_erase_eq_ite, Tally.lookup_insert_eq_ite]
  | idle => grind [scanQueue, sharedDispatch, Waits]
  | release other generation released =>
    have hcases := release_cases hstep
    grind [Waits, patience, older, sharedDispatch, finish, Tally.lookup_erase_eq_ite]

/-- **No work starves.**  In any reachable queue, work that waits for an idle key is passed over
by at most four shared dispatches for each older ticket and three more, whatever hints arrive and
whichever tasks end; and while a shared slot is free, or any slot if the work is live, a dispatch
hands out something. -/
theorem no_starvation (hreach : scanQueue.Run {} labels queue) {key : String} {ticket : Nat}
    (hwaits : queue.Waits key ticket) :
    (∀ later after, scanQueue.Run queue later after →
      queue.patience ticket < (later.map sharedDispatch).sum →
      ∃ dispatched, .dispatch dispatched ∈ later ∧ dispatched.work.key = key) ∧
    (queue.sharedRunning < SHARED_SLOTS ∨ queue.running.size < TOTAL_SLOTS ∧
      (∀ work, queue.pending.lookup key = some work → work.live = true) →
        queue.dispatch ≠ none) := by
  have hsound := sound_run hreach
  constructor
  · intro later after hrun hmany
    by_contra hnever
    have hother : ∀ dispatched, .dispatch dispatched ∈ later → dispatched.work.key ≠ key :=
      fun dispatched hmem hkey => hnever ⟨dispatched, hmem, hkey⟩
    apply absurd hmany (Nat.not_lt.mpr _)
    clear hnever hmany hreach
    induction hrun generalizing labels with
    | nil => exact Nat.zero_le _
    | cons hstep _ ih =>
      obtain ⟨hnext, hpaid⟩ := hwaits.step hsound hstep
        fun dispatched heq => hother dispatched (heq ▸ List.mem_cons_self)
      have hrest := ih hnext (hsound.step hstep).2
        fun dispatched hmem => hother dispatched (.tail _ hmem)
      rw [List.map_cons, List.sum_cons]
      omega
  · obtain ⟨work, hfound, -⟩ := Option.map_eq_some_iff.mp hwaits.1
    rintro (hfree | ⟨hfree, hlive⟩)
    · -- the reserved slot is one, so a free shared slot is a free slot
      apply dispatch_ne_none _ hfound hwaits.2 (.inl (if_pos hfree))
      have hreserved := hsound.reservedSlots
      rw [hsound.shared] at hfree
      rw [size_running]
      unfold SHARED_SLOTS at hfree
      show _ < 16
      omega
    · exact dispatch_ne_none hfree hfound hwaits.2 (.inr (hlive work hfound))

/-- A hint without activity, in a queue that holds nothing else. -/
theorem no_starvation_quiet : ∃ queue : ScanQueue Unit, ({} : ScanQueue Unit).enqueue quietHint =
    some (1, queue) ∧ queue.patience 1 = 3 ∧ queue.dispatch ≠ none := by
  refine ⟨_, rfl, rfl, ?_⟩
  have hrun : scanQueue.Run ({} : ScanQueue Unit) [.enqueue quietHint 1] _ :=
    .single (show ({} : ScanQueue Unit).enqueue quietHint = some (1, _) from rfl)
  exact (@no_starvation _ _ _ hrun quietHint.key 1 ⟨rfl, rfl⟩).2 (.inl (by decide))

end ScanQueue

end Antiburn
