/-
Spend efficiency for one thread of turns.

`EfficiencyReducer` joins the records of a message while its turn is among the 64
open ones, puts finished turns back in order through a window of 64, and folds
them.  `referenceEfficiency` groups all records, sorts and folds.
-/
import Antiburn.Metrics

namespace Antiburn

/-- Open message state covers heavily interleaved parent and sidechain records. -/
def MAX_OPEN_MESSAGES : Nat := 64

/-- The finalized-turn window restores local timestamp order. -/
def MAX_EFF_REORDER : Nat := 64

/-- The evicted-id window catches a message that returns after eviction. -/
def MAX_EFF_EVICTED : Nat := MAX_OPEN_MESSAGES

/-- The rewrite list keeps eight entries per visible chart bucket. -/
def MAX_REWRITE_MARKS : Nat := 1440

inductive Role where
  | user
  | assistant
  | system
  | tool
  deriving DecidableEq

/-- `Usage::saturating_add`. -/
def Usage.saturatingAdd (usage other : Usage) : Usage where
  inputTokens := Antiburn.saturatingAdd usage.inputTokens other.inputTokens
  outputTokens := Antiburn.saturatingAdd usage.outputTokens other.outputTokens
  cacheReadTokens := Antiburn.saturatingAdd usage.cacheReadTokens other.cacheReadTokens
  cacheCreationTokens := Antiburn.saturatingAdd usage.cacheCreationTokens other.cacheCreationTokens
  cacheCreation1hTokens :=
    Antiburn.saturatingAdd usage.cacheCreation1hTokens other.cacheCreation1hTokens

/-! ### Records -/

structure MessageKey where
  first : Nat
  second : Nat
  length : Nat
  deriving DecidableEq

def MessageKey.new (value : String) : MessageKey :=
  let bytes := value.toUTF8.data.toList
  { first := hashBytes bytes 0xcbf29ce484222325
    second := hashBytes bytes 0x84222325cbf29ce4
    length := bytes.length }

structure EfficiencyInput where
  ordinal : Nat
  tsMs : Option Int
  role : Role
  source : EventSource
  messageId : Option String
  model : Option String
  speed : Option String
  usage : Usage

def EfficiencyInput.messageKey (input : EfficiencyInput) : Option MessageKey :=
  input.messageId.map MessageKey.new

def isFast (speed : Option String) : Bool :=
  speed.any fun speed => eqIgnoreAsciiCase (String.ofList (trimText speed.toList)) "fast"

inductive ModelStatus (ρ : Type) where
  | missing
  | known (standard fast : Option ρ)

section Prices

variable {ρ : Type} (lookup : String → Option String → Option ρ)

/-- `lookup` is `lookup_turn_pricing`. -/
def modelStatus (model : Option String) : ModelStatus ρ :=
  match model with
  | none => .missing
  | some model =>
    if (modelName model).isEmpty then .known none none
    else .known (lookup (modelName model) none) (lookup (modelName model) (some "fast"))

/-! ### Turns -/

structure Turn (ρ : Type) where
  /-- Turns are counted as they open; there are never `2 ^ 64` of them. -/
  creation : Nat
  ordinal : Nat
  ts : Int
  id : Option MessageKey
  source : EventSource
  model : ModelStatus ρ
  fast : Bool
  usage : Usage

def Turn.key {ρ : Type} (turn : Turn ρ) : Int × Nat := (turn.ts, turn.creation)

/-- The model of an open message after a record that may name one: the first model wins. -/
def ModelStatus.joined (status : ModelStatus ρ) (model : Option String) : ModelStatus ρ :=
  match status, model with
  | .missing, some model => modelStatus lookup (some model)
  | status, _ => status

/-- A further record of an open message. -/
def Turn.join (turn : Turn ρ) (input : EfficiencyInput) : Turn ρ :=
  { turn with
    usage := turn.usage.saturatingAdd input.usage
    model := turn.model.joined lookup input.model
    fast := turn.fast || isFast input.speed }

def joinOpen (key : MessageKey) (input : EfficiencyInput) : List (Turn ρ) → Option (List (Turn ρ))
  | [] => none
  | turn :: rest =>
    if turn.id = some key then some (turn.join lookup input :: rest)
    else (joinOpen key input rest).map (turn :: ·)

end Prices

/-- Counts of priced and unpriced turns. -/
structure EfficiencyTotals where
  growthTokens : Nat := 0
  outputTokens : Nat := 0
  pricedTurns : Nat := 0
  unpricedTurns : Nat := 0
  deriving DecidableEq

/-- `add_priced`. -/
def EfficiencyTotals.addPriced (totals : EfficiencyTotals) (growth output turns : Nat) :
    EfficiencyTotals :=
  { totals with
    growthTokens := saturatingAdd totals.growthTokens growth
    outputTokens := saturatingAdd totals.outputTokens output
    pricedTurns := saturatingAdd totals.pricedTurns turns }

def EfficiencyTotals.addUnpriced (totals : EfficiencyTotals) (turns : Nat) : EfficiencyTotals :=
  { totals with unpricedTurns := saturatingAdd totals.unpricedTurns turns }

structure RewriteMark where
  ts : Int
  ordinal : Nat
  tokens : Nat
  deriving DecidableEq

structure FallbackOverflow where
  growthTokens : Nat := 0
  outputTokens : Nat := 0
  turns : Nat := 0
  deriving DecidableEq

/-- `add_fallback_overflow`. -/
def FallbackOverflow.add (target : FallbackOverflow) (usage : Usage) (growth : Nat) :
    FallbackOverflow where
  growthTokens := saturatingAdd target.growthTokens growth
  outputTokens := saturatingAdd target.outputTokens usage.outputTokens
  turns := saturatingAdd target.turns 1

def derivedRewriteTokens (usage : Usage) (growth : Nat) : Nat :=
  usage.effectiveInputTokens - growth

/-- `previous.map_or(context, |prior| context.saturating_sub(prior))`. -/
def growthSince (previous : Option Nat) (context : Nat) : Nat :=
  (previous.map fun prior => context - prior).getD context

/-- The fields of the reducer that folding a turn changes. -/
structure EfficiencyFold where
  totals : EfficiencyTotals := {}
  /-- Turns without a model of their own, at standard and at fast speed. -/
  fallbackOverflow : FallbackOverflow × FallbackOverflow := ({}, {})
  rewriteMarks : List RewriteMark := []
  previousContext : Option Nat := none
  previousParentContext : Option Nat := none
  lastFolded : Option (Int × Nat) := none
  reorderOverflow : Nat := 0

namespace EfficiencyFold

variable {ρ : Type}

def markRewrite (state : EfficiencyFold) (turn : Turn ρ) : EfficiencyFold :=
  if turn.source = EventSource.parent then
    let context := turn.usage.contextTokens
    let tokens :=
      derivedRewriteTokens turn.usage (growthSince state.previousParentContext context)
    { state with
      previousParentContext := some context
      rewriteMarks :=
        if tokens > 0 ∧ state.rewriteMarks.length < MAX_REWRITE_MARKS then
          state.rewriteMarks ++ [⟨turn.ts, turn.ordinal, tokens⟩]
        else state.rewriteMarks }
  else state

def countTurn (state : EfficiencyFold) (turn : Turn ρ) (growth : Nat) : EfficiencyFold :=
  match turn.model with
  | .missing =>
    { state with
      fallbackOverflow :=
        if turn.fast then
          (state.fallbackOverflow.1, state.fallbackOverflow.2.add turn.usage growth)
        else (state.fallbackOverflow.1.add turn.usage growth, state.fallbackOverflow.2) }
  | .known standard fast =>
    match if turn.fast then fast else standard with
    | some _ =>
      { state with totals := state.totals.addPriced growth turn.usage.outputTokens 1 }
    | none => { state with totals := state.totals.addUnpriced 1 }

def fold (state : EfficiencyFold) (turn : Turn ρ) : EfficiencyFold :=
  let behind := state.lastFolded.any fun last => keyLt turn.key last
  let context := turn.usage.contextTokens
  let growth := growthSince state.previousContext context
  let state := { state with
    reorderOverflow :=
      if behind then saturatingAdd state.reorderOverflow 1 else state.reorderOverflow
    lastFolded := some turn.key
    previousContext := some context }
  (state.markRewrite turn).countTurn turn growth

end EfficiencyFold

/-! ### The reducer -/

structure EfficiencyReducer (ρ : Type) where
  openTurns : List (Turn ρ) := []
  evicted : List MessageKey := []
  reorder : List (Turn ρ) := []
  folded : EfficiencyFold := {}
  lastTs : Int := -(2 ^ 63)
  creation : Nat := 0
  openOverflow : Nat := 0

/-- `Vec::swap_remove`. -/
def swapRemove {α : Type} (items : List α) (index : Nat) : List α :=
  match items.getLast? with
  | some last => (items.set index last).dropLast
  | none => []

/-- `min_by_key` over turns with their index: the first of the least. -/
def earliest {ρ : Type} : List (Turn ρ × Nat) → Option (Turn ρ × Nat)
  | [] => none
  | place :: rest =>
    match earliest rest with
    | none => some place
    | some best => if keyLt best.1.key place.1.key then some best else some place

namespace EfficiencyReducer

variable {ρ : Type}

def emitEarliest (reducer : EfficiencyReducer ρ) : EfficiencyReducer ρ :=
  match earliest reducer.reorder.zipIdx with
  | some (turn, index) =>
    { reducer with
      reorder := swapRemove reducer.reorder index
      folded := reducer.folded.fold turn }
  | none => reducer

def finalizeTurn (reducer : EfficiencyReducer ρ) (turn : Turn ρ) : EfficiencyReducer ρ :=
  if turn.usage.outputTokens = 0 then reducer
  else
    let reducer := { reducer with reorder := reducer.reorder ++ [turn] }
    if reducer.reorder.length > MAX_EFF_REORDER then reducer.emitEarliest else reducer

/-- The oldest open turn makes room. -/
def evictOldest (reducer : EfficiencyReducer ρ) : EfficiencyReducer ρ :=
  if reducer.openTurns.length = MAX_OPEN_MESSAGES then
    match reducer.openTurns with
    | [] => reducer
    | turn :: rest =>
      let reducer := { reducer with openTurns := rest }.finalizeTurn turn
      match turn.id with
      | none => reducer
      | some id =>
        let evicted :=
          if reducer.evicted.length = MAX_EFF_EVICTED then reducer.evicted.tail
          else reducer.evicted
        { reducer with evicted := evicted ++ [id] }
  else reducer

def countReturn (reducer : EfficiencyReducer ρ) (key : Option MessageKey) : EfficiencyReducer ρ :=
  match key with
  | none => reducer
  | some key =>
    if key ∈ reducer.evicted then
      { reducer with
        evicted := reducer.evicted.erase key
        openOverflow := saturatingAdd reducer.openOverflow 1 }
    else reducer

section Observe

variable (lookup : String → Option String → Option ρ)

def openTurn (reducer : EfficiencyReducer ρ) (input : EfficiencyInput) : Turn ρ where
  creation := reducer.creation
  ordinal := input.ordinal
  ts := reducer.lastTs
  id := input.messageKey
  source := input.source
  model := modelStatus lookup input.model
  fast := isFast input.speed
  usage := input.usage

def observe (reducer : EfficiencyReducer ρ) (input : EfficiencyInput) : EfficiencyReducer ρ :=
  let reducer := { reducer with lastTs := input.tsMs.getD reducer.lastTs }
  if input.role ≠ .assistant then reducer
  else
    match input.messageKey.bind fun key => joinOpen lookup key input reducer.openTurns with
    | some openTurns => { reducer with openTurns }
    | none =>
      let reducer := (reducer.countReturn input.messageKey).evictOldest
      { reducer with
        openTurns := reducer.openTurns ++ [reducer.openTurn lookup input]
        creation := reducer.creation + 1 }

/-- All records of a thread. -/
def ofInputs (inputs : List EfficiencyInput) : EfficiencyReducer ρ :=
  inputs.foldl (observe lookup) {}

end Observe

/-- `while let Some(turn) = self.open.pop_front()`. -/
def finalizeOpen (reducer : EfficiencyReducer ρ) : EfficiencyReducer ρ :=
  reducer.openTurns.foldl finalizeTurn { reducer with openTurns := [] }

/-- `while !self.reorder.is_empty()`, as often as there are turns. -/
def emitAll : Nat → EfficiencyReducer ρ → EfficiencyReducer ρ
  | 0, reducer => reducer
  | turns + 1, reducer => emitAll turns reducer.emitEarliest

def flush (reducer : EfficiencyReducer ρ) : EfficiencyReducer ρ :=
  reducer.finalizeOpen.emitAll reducer.finalizeOpen.reorder.length

/-- `apply_fallback_overflow`. -/
def applyFallback (fallback : ModelStatus ρ) (fast : Bool) (totals : EfficiencyTotals)
    (contribution : FallbackOverflow) : EfficiencyTotals :=
  match fallback with
  | .missing => totals.addUnpriced contribution.turns
  | .known standard quick =>
    match if fast then quick else standard with
    | some _ =>
      totals.addPriced contribution.growthTokens contribution.outputTokens contribution.turns
    | none => totals.addUnpriced contribution.turns

def finish (lookup : String → Option String → Option ρ) (reducer : EfficiencyReducer ρ)
    (fallbackModel : Option String) : EfficiencyTotals :=
  let folded := reducer.flush.folded
  let fallback := modelStatus lookup fallbackModel
  applyFallback fallback true (applyFallback fallback false folded.totals folded.fallbackOverflow.1)
    folded.fallbackOverflow.2

def rewriteMarks (reducer : EfficiencyReducer ρ) : List RewriteMark :=
  reducer.flush.folded.rewriteMarks

end EfficiencyReducer

/-! ### The definition -/

structure ReferenceTurn where
  ordinal : Nat
  ts : Int
  id : Option MessageKey
  source : EventSource
  model : Option String
  fast : Bool
  usage : Usage

structure Grouping where
  turns : List ReferenceTurn := []
  lastTs : Int := -(2 ^ 63)

def EfficiencyInput.group (input : EfficiencyInput) (ts : Int) : ReferenceTurn where
  ordinal := input.ordinal
  ts
  id := input.messageKey
  source := input.source
  model := input.model
  fast := isFast input.speed
  usage := input.usage

/-- The turn of a message, with one more record: the first model wins, one fast record is enough. -/
def ReferenceTurn.join (turn : ReferenceTurn) (input : EfficiencyInput) : ReferenceTurn :=
  { turn with
    usage := turn.usage.saturatingAdd input.usage
    model := turn.model.or input.model
    fast := turn.fast || isFast input.speed }

def joinGroup (key : MessageKey) (input : EfficiencyInput) :
    List ReferenceTurn → Option (List ReferenceTurn)
  | [] => none
  | turn :: rest =>
    if turn.id = some key then some (turn.join input :: rest)
    else (joinGroup key input rest).map (turn :: ·)

namespace Grouping

/-- One more record, which looks for its message among the turns that `among` keeps apart. -/
def stepAmong (among : List ReferenceTurn → Nat) (grouping : Grouping) (input : EfficiencyInput) :
    Grouping :=
  let ts := input.tsMs.getD grouping.lastTs
  if input.role ≠ .assistant then { grouping with lastTs := ts }
  else
    let (older, newer) := grouping.turns.splitAt (among grouping.turns)
    match input.messageKey.bind fun key => joinGroup key input newer with
    | some newer => { turns := older ++ newer, lastTs := ts }
    | none =>
      { turns := grouping.turns ++ [input.group ts], lastTs := ts }

/-- Records grouped by message: each looks among all turns. -/
def ofInputs (inputs : List EfficiencyInput) : Grouping :=
  inputs.foldl (stepAmong fun _ => 0) {}

/-- Records grouped as the reducer does it: each looks among the last 64 turns. -/
def windowed (inputs : List EfficiencyInput) : Grouping :=
  inputs.foldl (stepAmong fun turns => turns.length - MAX_OPEN_MESSAGES) {}

end Grouping

structure ReferenceFold where
  totals : EfficiencyTotals := {}
  fallback : FallbackOverflow × FallbackOverflow := ({}, {})
  rewrites : List RewriteMark := []
  previousContext : Option Nat := none
  previousParentContext : Option Nat := none

section Reference

variable {ρ : Type} (lookup : String → Option String → Option ρ)

/-- `lookup_turn_pricing` under the speed of a turn. -/
def priceAt (fast : Bool) (model : String) : Option ρ :=
  lookup model (if fast then some "fast" else none)

def ReferenceFold.rewritten (state : ReferenceFold) (turn : ReferenceTurn) : List RewriteMark :=
  let context := turn.usage.contextTokens
  let tokens := turn.usage.effectiveInputTokens - growthSince state.previousParentContext context
  if turn.source = EventSource.parent ∧ tokens > 0 then [⟨turn.ts, turn.ordinal, tokens⟩] else []

def ReferenceFold.step (state : ReferenceFold) (turn : ReferenceTurn) : ReferenceFold :=
  let context := turn.usage.contextTokens
  let growth := growthSince state.previousContext context
  let folded := { state with
    previousContext := some context
    previousParentContext :=
      if turn.source = EventSource.parent then some context else state.previousParentContext
    rewrites := state.rewrites ++ state.rewritten turn }
  match turn.model with
  | none =>
    { folded with
      fallback :=
        if turn.fast then (state.fallback.1, state.fallback.2.add turn.usage growth)
        else (state.fallback.1.add turn.usage growth, state.fallback.2) }
  | some model =>
    if (modelName model).isEmpty then { folded with totals := state.totals.addUnpriced 1 }
    else
      match priceAt lookup turn.fast (modelName model) with
      | some _ =>
        { folded with totals := state.totals.addPriced growth turn.usage.outputTokens 1 }
      | none => { folded with totals := state.totals.addUnpriced 1 }

/-- The fallback aggregate prices once, after every priced turn. -/
def ReferenceFold.settle (fallbackModel : Option String) (fast : Bool) (totals : EfficiencyTotals)
    (contribution : FallbackOverflow) : EfficiencyTotals :=
  match ((fallbackModel.map modelName).filter fun name => !name.isEmpty).bind
      (priceAt lookup fast) with
  | some _ =>
    totals.addPriced contribution.growthTokens contribution.outputTokens contribution.turns
  | none => totals.addUnpriced contribution.turns

def ReferenceTurn.hasOutput (turn : ReferenceTurn) : Bool := decide (turn.usage.outputTokens > 0)

def referenceFold (inputs : List EfficiencyInput) : ReferenceFold :=
  (((Grouping.ofInputs inputs).turns.filter ReferenceTurn.hasOutput).mergeSort
    fun turn later => decide (turn.ts ≤ later.ts)).foldl (ReferenceFold.step lookup) {}

def referenceEfficiency (inputs : List EfficiencyInput) (fallbackModel : Option String) :
    EfficiencyTotals × List RewriteMark :=
  let folded := referenceFold lookup inputs
  (ReferenceFold.settle lookup fallbackModel true
      (ReferenceFold.settle lookup fallbackModel false folded.totals folded.fallback.1)
      folded.fallback.2,
    folded.rewrites)

end Reference

end Antiburn
