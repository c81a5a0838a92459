/-
Cache misses of a session.

`CacheReducer` classifies cache turns as they stream by: in mode 1 a turn that
writes much cache explicitly, in mode 2 a turn that the next one recovers from.
Which mode counts is known only at the end, and so is the model that turns before
the first named model ran on.  `cacheMissEvents` is the two-pass definition over
the whole list.
-/
import Antiburn.SlotGrid

namespace Antiburn

def CACHE_REHYDRATION_MIN_CONTEXT_TOKENS : Nat := 20000

/-- Model deferral spans only the transition to the first explicit model. -/
def MAX_DEFERRED_CACHE : Nat := 8

structure CacheTurn (κ : Type) where
  ordinal : Nat
  contextTokens : Nat
  cacheReadTokens : Nat
  firstTurnAfterCompaction : Bool
  secsSincePriorTurn : Option Nat
  userInactiveSecs : Option Nat
  model : Option κ

structure CacheInput (κ : Type) where
  ordinal : Nat
  timestamp : Option Int
  contextTokens : Nat
  cacheReadTokens : Nat
  cacheWriteTokens : Nat
  model : Option κ

/-- A window whose models cannot be compared yet. -/
structure DeferredCache (κ : Type) where
  ordinal : Nat
  gap : Option Nat
  previousModel : Option κ
  currentModel : Option κ
  nextModel : Option κ
  rehydration : CacheRehydrationMark

structure CachePatch where
  ordinal : Nat
  slot : CacheSlot

structure MissCounts where
  rehydrations : Nat := 0
  routingMisses : Nat := 0
  deriving DecidableEq

/-- Whole seconds from one time to another, where both are known. -/
def secsBetween (earlier later : Option Int) : Option Nat :=
  match later, earlier with
  | some later, some earlier => some (max (later - earlier) 0 / 1000).toNat
  | _, _ => none

/-- `cache_ratio(tokens, context) < numerator / denominator`, as exact rationals. -/
def cacheRatioBelow (tokens contextTokens numerator denominator : Nat) : Bool :=
  contextTokens = 0 || decide (tokens * denominator < numerator * contextTokens)

/-- `tokens / context < 4 / 5` for a context that is not empty. -/
def retentionBelow (tokens contextTokens : Nat) : Bool := decide (tokens * 5 < 4 * contextTokens)

section Models

variable {κ : Type} [DecidableEq κ]

def sameKnownModel (left right : Option κ) : Bool :=
  match left, right with
  | some left, some right => left = right
  | _, _ => true

def modelsMatch (previous current next fallback : Option κ) : Bool :=
  sameKnownModel (previous.or fallback) (current.or fallback) &&
    sameKnownModel (current.or fallback) (next.or fallback)

omit [DecidableEq κ] in
def rehydrationMark (previousContext : Nat) (current : CacheTurn κ) : CacheRehydrationMark :=
  let stillCachedTokens := min current.cacheReadTokens current.contextTokens
  let uncachedTokens := current.contextTokens - stillCachedTokens
  let growthTokens := min (current.contextTokens - previousContext) uncachedTokens
  { ordinal := current.ordinal
    contextTokens := current.contextTokens
    stillCachedTokens
    rewrittenTokens := uncachedTokens - growthTokens
    growthTokens
    userInactiveSecs := current.userInactiveSecs }

def isMaterialCacheEvent (previous current : CacheTurn κ) : Bool :=
  if current.firstTurnAfterCompaction ||
      current.contextTokens < CACHE_REHYDRATION_MIN_CONTEXT_TOKENS ||
      cacheRatioBelow previous.cacheReadTokens previous.contextTokens 1 2 ||
      !sameKnownModel previous.model current.model then false
  else if retentionBelow current.contextTokens previous.contextTokens then false
  else decide ((rehydrationMark previous.contextTokens current).rewrittenTokens ≥
    CACHE_REHYDRATION_MIN_CONTEXT_TOKENS)

def isDirectCacheEvent (previous current : CacheTurn κ) (cacheWriteTokens : Nat) : Bool :=
  decide (cacheWriteTokens ≥ CACHE_REHYDRATION_MIN_CONTEXT_TOKENS) &&
    isMaterialCacheEvent previous current

def inferredCacheRehydrationTurn (previous current : CacheTurn κ) : Bool :=
  isMaterialCacheEvent previous current

omit [DecidableEq κ] in
def recovers (current next : CacheTurn κ) : Bool :=
  !next.firstTurnAfterCompaction &&
    !cacheRatioBelow next.cacheReadTokens next.contextTokens 1 2 &&
    !retentionBelow next.contextTokens current.contextTokens

end Models

def rehydrationMinUserInactivitySecs (agent : String) : Option Nat :=
  if agent = "claude" then some (60 * 60)
  else if agent = "codex" then some (30 * 60)
  else none

/-- Whether a user was inactive for long enough. -/
def isRehydration (minimum : Option Nat) (mark : CacheRehydrationMark) : Bool :=
  match minimum, mark.userInactiveSecs with
  | some minimum, some inactivity => decide (inactivity ≥ minimum)
  | _, _ => false

def classify (rehydration : CacheRehydrationMark) (gap minimum : Option Nat) : CacheSlot where
  isRehydration := isRehydration minimum rehydration
  isRoutingMiss := !isRehydration minimum rehydration
  rehydrationGap := some (rehydration.ordinal, gap)
  rehydration := some rehydration

def countSlot (counts : MissCounts) (slot : CacheSlot) : MissCounts :=
  if slot.isRehydration then
    { counts with rehydrations := saturatingAdd counts.rehydrations 1 }
  else if slot.isRoutingMiss then
    { counts with routingMisses := saturatingAdd counts.routingMisses 1 }
  else counts

/-! ### The reducer -/

structure CacheReducer (κ : Type) where
  rehydrationMinUserInactivitySecs : Option Nat
  hasExplicitCacheWrites : Bool := false
  firstTurnAfterCompaction : Bool := false
  previousTurnTs : Option Int := none
  pendingUserPrompt : Bool := false
  pendingUserPromptTs : Option Int := none
  turns : List (CacheTurn κ) := []
  deferred : List (DeferredCache κ) := []
  mode1 : MissCounts := {}
  mode2 : MissCounts := {}

namespace CacheReducer

variable {κ : Type} [DecidableEq κ]

omit [DecidableEq κ] in
def new (agent : String) : CacheReducer κ where
  rehydrationMinUserInactivitySecs := Antiburn.rehydrationMinUserInactivitySecs agent

omit [DecidableEq κ] in
def markCompaction (reducer : CacheReducer κ) : CacheReducer κ :=
  { reducer with firstTurnAfterCompaction := true }

omit [DecidableEq κ] in
def observeUserPrompt (reducer : CacheReducer κ) (timestamp : Option Int) : CacheReducer κ :=
  { reducer with
    pendingUserPrompt := true
    pendingUserPromptTs := reducer.pendingUserPromptTs.or timestamp }

omit [DecidableEq κ] in
def userInactivitySecs (reducer : CacheReducer κ) : Option Nat :=
  if reducer.pendingUserPrompt then
    secsBetween reducer.previousTurnTs reducer.pendingUserPromptTs
  else none

omit [DecidableEq κ] in
def mode2Patch (reducer : CacheReducer κ) (ordinal : Nat) (gap : Option Nat)
    (rehydration : CacheRehydrationMark) : CachePatch × CacheReducer κ :=
  let slot := classify rehydration gap reducer.rehydrationMinUserInactivitySecs
  (⟨ordinal, slot⟩, { reducer with mode2 := countSlot reducer.mode2 slot })

def resolveWindow (reducer : CacheReducer κ) (previous current next : CacheTurn κ) :
    Option CachePatch × CacheReducer κ :=
  if !inferredCacheRehydrationTurn previous current || !recovers current next then (none, reducer)
  else
    let rehydration := rehydrationMark previous.contextTokens current
    let models := [previous.model, current.model, next.model]
    if models.any Option.isNone && models.any Option.isSome then
      if reducer.deferred.length < MAX_DEFERRED_CACHE then
        (none, { reducer with
          deferred := reducer.deferred ++ [{
            ordinal := current.ordinal
            gap := current.secsSincePriorTurn
            previousModel := previous.model
            currentModel := current.model
            nextModel := next.model
            rehydration }] })
      else (none, reducer)
    else if !modelsMatch previous.model current.model next.model none then (none, reducer)
    else
      let patched := reducer.mode2Patch current.ordinal current.secsSincePriorTurn rehydration
      (some patched.1, patched.2)

def turnOf (reducer : CacheReducer κ) (input : CacheInput κ) : CacheTurn κ where
  ordinal := input.ordinal
  contextTokens := input.contextTokens
  cacheReadTokens := input.cacheReadTokens
  firstTurnAfterCompaction := reducer.firstTurnAfterCompaction
  secsSincePriorTurn := secsBetween reducer.previousTurnTs input.timestamp
  userInactiveSecs := reducer.userInactivitySecs
  model := input.model

def directSlot (reducer : CacheReducer κ) (turn : CacheTurn κ) (cacheWriteTokens : Nat) :
    Option CacheSlot :=
  match reducer.turns.getLast? with
  | some previous =>
    if isDirectCacheEvent previous turn cacheWriteTokens then
      some (classify (rehydrationMark previous.contextTokens turn) turn.secsSincePriorTurn
        reducer.rehydrationMinUserInactivitySecs)
    else none
  | none => none

def observe (reducer : CacheReducer κ) (input : CacheInput κ) :
    (CacheSlot × Option CachePatch × Option Nat) × CacheReducer κ :=
  let turn := reducer.turnOf input
  let direct := reducer.directSlot turn input.cacheWriteTokens
  let observed := { reducer with
    hasExplicitCacheWrites :=
      reducer.hasExplicitCacheWrites || decide (input.cacheWriteTokens > 0)
    firstTurnAfterCompaction := false
    previousTurnTs := input.timestamp
    pendingUserPrompt := false
    pendingUserPromptTs := none
    mode1 := (direct.map (countSlot reducer.mode1)).getD reducer.mode1 }
  let resolved :=
    match reducer.turns ++ [turn] with
    | [previous, current, next] =>
      { observed with turns := [current, next] }.resolveWindow previous current next
    | turns => (none, { observed with turns })
  ((direct.getD {}, resolved.1, turn.secsSincePriorTurn), resolved.2)

/-- One deferred window, when the summary's model is known. -/
def resolveCandidate (fallback : Option κ) (resolved : List CachePatch × CacheReducer κ)
    (candidate : DeferredCache κ) : List CachePatch × CacheReducer κ :=
  if modelsMatch candidate.previousModel candidate.currentModel candidate.nextModel fallback then
    let patched := resolved.2.mode2Patch candidate.ordinal candidate.gap candidate.rehydration
    (resolved.1 ++ [patched.1], patched.2)
  else resolved

def resolveDeferred (reducer : CacheReducer κ) (fallback : Option κ) :
    List CachePatch × CacheReducer κ :=
  reducer.deferred.foldl (resolveCandidate fallback) ([], { reducer with deferred := [] })

end CacheReducer

/-! ### Events -/

inductive CacheEvent (κ : Type) where
  | userPrompt (timestamp : Option Int)
  | compactionBoundary
  /-- A turn with token counts; `model` is the model it names, if any. -/
  | turn (timestamp : Option Int) (contextTokens cacheReadTokens cacheWriteTokens : Nat)
      (model : Option κ)

structure MissEvent where
  isRehydration : Bool
  composition : CacheRehydrationMark
  deriving DecidableEq

def CacheSlot.missEvents (slot : CacheSlot) : List MissEvent :=
  match slot.rehydration with
  | some composition => [⟨slot.isRehydration, composition⟩]
  | none => []

/-- The accumulator's part in classifying cache misses. -/
structure CacheRun (κ : Type) where
  reducer : CacheReducer κ
  activeModel : Option κ := none
  observedTurns : Nat := 0
  mode1Slots : List CacheSlot := []
  mode2Patches : List CachePatch := []

namespace CacheRun

variable {κ : Type} [DecidableEq κ]

def step (run : CacheRun κ) (event : CacheEvent κ) : CacheRun κ :=
  let run := { run with observedTurns := run.observedTurns + 1 }
  match event with
  | .userPrompt timestamp => { run with reducer := run.reducer.observeUserPrompt timestamp }
  | .compactionBoundary => { run with reducer := run.reducer.markCompaction }
  | .turn timestamp contextTokens cacheReadTokens cacheWriteTokens model =>
    let activeModel := model.or run.activeModel
    if contextTokens > 0 then
      let observed := run.reducer.observe {
        ordinal := run.observedTurns - 1
        timestamp
        contextTokens
        cacheReadTokens
        cacheWriteTokens
        model := activeModel }
      { run with
        reducer := observed.2
        activeModel
        mode1Slots := run.mode1Slots ++ [observed.1.1]
        mode2Patches := run.mode2Patches ++ observed.1.2.1.toList }
    else { run with activeModel }

def start (agent : String) : CacheRun κ where
  reducer := .new agent

def ofEvents (agent : String) (events : List (CacheEvent κ)) : CacheRun κ :=
  events.foldl step (start agent)

/-- What the chart shows once the summary is known. -/
def classified (run : CacheRun κ) (summaryModel : Option κ) : List MissEvent :=
  if run.reducer.hasExplicitCacheWrites then run.mode1Slots.flatMap CacheSlot.missEvents
  else (run.mode2Patches ++ (run.reducer.resolveDeferred summaryModel).1).flatMap
    fun patch => patch.slot.missEvents

def counts (run : CacheRun κ) (summaryModel : Option κ) : MissCounts :=
  if run.reducer.hasExplicitCacheWrites then run.reducer.mode1
  else (run.reducer.resolveDeferred summaryModel).2.mode2

end CacheRun

/-! ### The two-pass definition -/

/-- The first pass of `cache_miss_events`. -/
structure MissScan (κ : Type) where
  activeModel : Option κ
  eventIndex : Nat := 0
  cacheTurns : List (CacheTurn κ) := []
  events : List MissEvent := []
  firstTurnAfterCompaction : Bool := false
  hasExplicitCacheWrites : Bool := false
  previousTurnTs : Option Int := none
  pendingUserPrompt : Bool := false
  pendingUserPromptTs : Option Int := none

/-- `CacheMissEvents::insert`. -/
def missEvent {κ : Type} (minimum : Option Nat) (previousContext : Nat) (turn : CacheTurn κ) :
    MissEvent :=
  let composition := rehydrationMark previousContext turn
  ⟨isRehydration minimum composition, composition⟩

namespace MissScan

variable {κ : Type} [DecidableEq κ]

def step (minimum : Option Nat) (scan : MissScan κ) (event : CacheEvent κ) : MissScan κ :=
  let scan := { scan with eventIndex := scan.eventIndex + 1 }
  match event with
  | .userPrompt timestamp =>
    { scan with
      pendingUserPrompt := true
      pendingUserPromptTs := scan.pendingUserPromptTs.or timestamp }
  | .compactionBoundary => { scan with firstTurnAfterCompaction := true }
  | .turn timestamp contextTokens cacheReadTokens cacheWriteTokens model =>
    let scan := { scan with activeModel := model.or scan.activeModel }
    if contextTokens = 0 then scan
    else
      let cacheTurn : CacheTurn κ := {
        ordinal := scan.eventIndex - 1
        contextTokens
        cacheReadTokens
        firstTurnAfterCompaction := scan.firstTurnAfterCompaction
        secsSincePriorTurn := none
        userInactiveSecs :=
          if scan.pendingUserPrompt then
            secsBetween scan.previousTurnTs scan.pendingUserPromptTs
          else none
        model := scan.activeModel }
      let events :=
        match scan.cacheTurns.getLast? with
        | some previous =>
          if isDirectCacheEvent previous cacheTurn cacheWriteTokens then
            scan.events ++ [missEvent minimum previous.contextTokens cacheTurn]
          else scan.events
        | none => scan.events
      { scan with
        pendingUserPrompt := false
        pendingUserPromptTs := none
        hasExplicitCacheWrites := scan.hasExplicitCacheWrites || decide (cacheWriteTokens > 0)
        events
        cacheTurns := scan.cacheTurns ++ [cacheTurn]
        previousTurnTs := timestamp
        firstTurnAfterCompaction := false }

end MissScan

/-- `windows(3)`. -/
def windows3 {α : Type} : List α → List (α × α × α)
  | a :: b :: c :: rest => (a, b, c) :: windows3 (b :: c :: rest)
  | _ => []

/-- `cache_miss_events`, with the summary's model known from the start. -/
def cacheMissEvents {κ : Type} [DecidableEq κ] (agent : String) (summaryModel : Option κ)
    (events : List (CacheEvent κ)) : List MissEvent :=
  let minimum := rehydrationMinUserInactivitySecs agent
  let scan := events.foldl (MissScan.step minimum) { activeModel := summaryModel }
  if scan.hasExplicitCacheWrites then scan.events
  else
    scan.events ++
      ((windows3 scan.cacheTurns).filter fun (previous, current, next) =>
        inferredCacheRehydrationTurn previous current && recovers current next &&
          sameKnownModel current.model next.model).map
        fun (previous, current, _) => missEvent minimum previous.contextTokens current

/-- The counters of classified turns; they stop at the greatest `u64`. -/
def missCounts (events : List MissEvent) : MissCounts where
  rehydrations := min (events.countP fun event => event.isRehydration) U64_MAX
  routingMisses := min (events.countP fun event => !event.isRehydration) U64_MAX

end Antiburn
