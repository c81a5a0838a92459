/-
Bounded session metrics.

The part of `SessionMetricsAccumulator` that carries token counts: the time axis,
the open slot of an event with its split usage, the reorder window, the folded
grid, the tables of models, and the projection into chart buckets.
-/
import Antiburn.FullFraming
import Antiburn.MetricsSlots

namespace Antiburn

/-! ### Events -/

structure Usage where
  inputTokens : Nat := 0
  outputTokens : Nat := 0
  cacheReadTokens : Nat := 0
  cacheCreationTokens : Nat := 0
  cacheCreation1hTokens : Nat := 0

namespace Usage

/-- Fresh input plus prompt-cache writes. -/
def effectiveInputTokens (usage : Usage) : Nat :=
  saturatingAdd usage.inputTokens usage.cacheCreationTokens

/-- Approximate context-window occupancy of a turn. -/
def contextTokens (usage : Usage) : Nat :=
  saturatingAdd (saturatingAdd usage.inputTokens usage.cacheReadTokens) usage.cacheCreationTokens

end Usage

inductive EventSource where
  | parent
  | subagent
  deriving DecidableEq

structure NormalizedEvent where
  tsMs : Option Int
  usageTsMs : Option Int
  source : EventSource
  usage : Usage
  /-- Whether the record carries native accounting. -/
  accounting : Bool
  model : Option String
  speed : Option String

/-! ### Active time -/

def IDLE_GAP_MS : Int := 5 * 60 * 1000

/-- The segment cap covers 1,024 distinct active-time intervals. -/
def MAX_ACTIVE_SEGMENTS : Nat := 1024

/-- The nearest `i64`. -/
def saturateI64 (value : Int) : Int := max (-(2 ^ 63)) (min value (2 ^ 63 - 1))

structure ActiveSegment where
  start : Int
  stop : Int
  activeMs : Int

namespace ActiveSegment

def exact (start stop : Int) : ActiveSegment := ⟨start, stop, max (saturateI64 (stop - start)) 0⟩

def spanMs (segment : ActiveSegment) : Int := max (saturateI64 (segment.stop - segment.start)) 0

def measureTo (segment : ActiveSegment) (timestamp : Int) : Int :=
  if timestamp ≤ segment.start then 0
  else if timestamp ≥ segment.stop then segment.activeMs
  else if segment.spanMs = 0 then 0
  else
    (saturateI64 (segment.activeMs * saturateI64 (timestamp - segment.start))).tdiv segment.spanMs

end ActiveSegment

structure ActiveSegments where
  segments : List ActiveSegment := []
  firstTs : Option Int := none
  lastTs : Option Int := none
  segmentsMerged : Nat := 0

namespace ActiveSegments

/-- Sum of active time, up to the greatest `i64`. -/
def sumActive (segments : List ActiveSegment) : Int :=
  segments.foldl (fun total segment => saturateI64 (total + segment.activeMs)) 0

def mergeOverflowSegment (left right : List ActiveSegment) (incoming : ActiveSegment) :
    List ActiveSegment :=
  let extend (current : ActiveSegment) : ActiveSegment :=
    ⟨min current.start incoming.start, max current.stop incoming.stop,
      saturateI64 (current.activeMs + incoming.activeMs)⟩
  match left.getLast?, right with
  | none, [] => []
  | none, current :: rest => extend current :: rest
  | some current, [] => left.dropLast ++ [extend current]
  | some before, after :: rest =>
    if saturateI64 (incoming.start - before.stop) ≤ saturateI64 (after.start - incoming.stop) then
      left.dropLast ++ extend before :: right
    else left ++ extend after :: rest

def insertSegment (active : ActiveSegments) (incoming : ActiveSegment) : ActiveSegments :=
  let left := active.segments.takeWhile fun segment => segment.stop < incoming.start
  let behind := active.segments.dropWhile fun segment => segment.stop < incoming.start
  let existing := behind.takeWhile fun segment => segment.start ≤ incoming.stop
  let right := behind.dropWhile fun segment => segment.start ≤ incoming.stop
  match existing.head?, existing.getLast? with
  | some first, some last =>
    let start := min incoming.start first.start
    let stop := max incoming.stop last.stop
    let span := (ActiveSegment.mk start stop 0).spanMs
    let activeMs :=
      if existing.all fun segment => segment.activeMs == segment.spanMs then span
      else
        let outsideLeft := max (saturateI64 (first.start - incoming.start)) 0
        let outsideRight := max (saturateI64 (incoming.stop - last.stop)) 0
        min (saturateI64 (saturateI64 (sumActive existing + outsideLeft) + outsideRight)) span
    { active with segments := left ++ ⟨start, stop, activeMs⟩ :: right }
  | _, _ =>
    if active.segments.length = MAX_ACTIVE_SEGMENTS then
      { active with
        segments := mergeOverflowSegment left right incoming
        segmentsMerged := saturatingAdd active.segmentsMerged 1 }
    else { active with segments := left ++ incoming :: right }

def observe (active : ActiveSegments) (timestamp : Int) : ActiveSegments :=
  let active :=
    { active with
      firstTs := some ((active.firstTs.map (min timestamp)).getD timestamp)
      lastTs := some ((active.lastTs.map (max timestamp)).getD timestamp) }
  active.insertSegment (.exact timestamp (saturateI64 (timestamp + IDLE_GAP_MS)))

def activeMs (active : ActiveSegments) : Int :=
  match active.firstTs, active.lastTs with
  | some _, some _ => max (saturateI64 (sumActive active.segments - IDLE_GAP_MS)) 0
  | _, _ => 0

def measureTo (active : ActiveSegments) (timestamp : Int) : Int :=
  let before := active.segments.takeWhile fun segment => segment.start < timestamp
  match before.getLast? with
  | none => 0
  | some last => saturateI64 (sumActive before.dropLast + last.measureTo timestamp)

def cumulativeMs (active : ActiveSegments) (timestamp : Int) : Int :=
  match active.firstTs, active.lastTs with
  | some first, some last =>
    if timestamp ≤ first then 0
    else if timestamp ≥ last then active.activeMs
    else saturateI64 (active.measureTo timestamp - active.measureTo first)
  | _, _ => 0

end ActiveSegments

/-! ### Names -/

/-- Names keep enough bytes for provider and tool identifiers. -/
def MAX_NAME_BYTES : Nat := 64

/-- Model attribution matches the evidence-side model limit. -/
def MAX_MODELS : Nat := 32

/-- `hash_bytes`. -/
def hashBytes (bytes : List UInt8) (seed : Nat) : Nat :=
  bytes.foldl (fun hash byte => (hash * 0x00000100000001b3 % 2 ^ 64) ^^^ byte.toNat) seed

def hexDigits (hash : Nat) : String :=
  let digits := Nat.toDigits 16 hash
  String.ofList (List.replicate (16 - digits.length) '0' ++ digits)

/-- The longest prefix of a text within some bytes. -/
def takeBytes : Nat → List Char → List Char
  | _, [] => []
  | limit, c :: rest =>
    if c.utf8Size ≤ limit then c :: takeBytes (limit - c.utf8Size) rest else []

def truncateName (name : String) : String :=
  if name.utf8ByteSize ≤ MAX_NAME_BYTES then name
  else
    String.ofList (takeBytes (MAX_NAME_BYTES - 17) name.toList) ++ "#" ++
      hexDigits (hashBytes name.toUTF8.data.toList 0xcbf29ce484222325)

structure Interner where
  names : List String := []
  limit : Nat
  truncated : Nat := 0

namespace Interner

def intern (interner : Interner) (name : String) : Option NameId × Interner :=
  let bounded := truncateName name
  match interner.names.idxOf? bounded with
  | some index => (some ⟨index⟩, interner)
  | none =>
    if interner.names.length ≥ interner.limit then
      (none, { interner with truncated := saturatingAdd interner.truncated 1 })
    else (some ⟨interner.names.length⟩, { interner with names := interner.names ++ [bounded] })

end Interner

/-! ### Token tables -/

structure ModelTokens where
  inputTokens : Nat := 0
  outputTokens : Nat := 0
  cacheReadTokens : Nat := 0
  cacheCreationTokens : Nat := 0
  cacheCreation1hTokens : Nat := 0

/-- `add_usage`. -/
def ModelTokens.addUsage (tokens : ModelTokens) (usage : Usage) : ModelTokens where
  inputTokens := saturatingAdd tokens.inputTokens usage.inputTokens
  outputTokens := saturatingAdd tokens.outputTokens usage.outputTokens
  cacheReadTokens := saturatingAdd tokens.cacheReadTokens usage.cacheReadTokens
  cacheCreationTokens := saturatingAdd tokens.cacheCreationTokens usage.cacheCreationTokens
  cacheCreation1hTokens := saturatingAdd tokens.cacheCreation1hTokens usage.cacheCreation1hTokens

structure OnlineTallies where
  tokensIn : Nat := 0
  tokensOut : Nat := 0
  billableInputTokens : Nat := 0
  billableOutputTokens : Nat := 0
  billableCacheReadTokens : Nat := 0
  billableCacheCreationTokens : Nat := 0
  peakContextTokens : Nat := 0
  eventCount : Nat := 0

def OnlineTallies.observe (tallies : OnlineTallies) (event : NormalizedEvent) : OnlineTallies where
  tokensIn := saturatingAdd tallies.tokensIn event.usage.effectiveInputTokens
  tokensOut := saturatingAdd tallies.tokensOut event.usage.outputTokens
  billableInputTokens := saturatingAdd tallies.billableInputTokens event.usage.inputTokens
  billableOutputTokens := saturatingAdd tallies.billableOutputTokens event.usage.outputTokens
  billableCacheReadTokens :=
    saturatingAdd tallies.billableCacheReadTokens event.usage.cacheReadTokens
  billableCacheCreationTokens :=
    saturatingAdd tallies.billableCacheCreationTokens event.usage.cacheCreationTokens
  peakContextTokens :=
    if event.source = .parent then max tallies.peakContextTokens event.usage.contextTokens
    else tallies.peakContextTokens
  eventCount := saturatingAdd tallies.eventCount 1

def addTokens {κ : Type} [DecidableEq κ] (key : κ) (usage : Usage) :
    List (κ × ModelTokens) → List (κ × ModelTokens)
  | [] => []
  | (current, tokens) :: rest =>
    if current = key then (current, tokens.addUsage usage) :: rest
    else (current, tokens) :: addTokens key usage rest

def newTokens (usage : Usage) : ModelTokens := ModelTokens.addUsage {} usage

def addRow {κ : Type} [DecidableEq κ] (key : κ) (usage : Usage) (table : List (κ × ModelTokens)) :
    List (κ × ModelTokens) :=
  if table.any fun row => row.1 == key then addTokens key usage table
  else table ++ [(key, newTokens usage)]

/-- The text without whitespace at its ends (`str::trim`). -/
def trimText (text : List Char) : List Char :=
  ((text.dropWhile isWhiteSpace).reverse.dropWhile isWhiteSpace).reverse

/-- `strip_window_tag` and `trim`: what a model name is looked up by. -/
def modelName (model : String) : String :=
  let tagged := model.toList.takeWhile (· != '[')
  String.ofList (trimText tagged)

/-- `model.trim().is_empty()` of an optional model name. -/
def blankModel (model : Option String) : Bool :=
  model.all fun name => (trimText name.toList).isEmpty

/-- `eq_ignore_ascii_case`. -/
def eqIgnoreAsciiCase (a b : String) : Bool :=
  a.toList.map Char.toLower == b.toList.map Char.toLower

/-! ### The accumulator -/

structure SessionMetricsAccumulator where
  slots : ProgressSlots := {}
  reorder : ReorderWindow := {}
  active : ActiveSegments := {}
  modelInterner : Interner := { limit := MAX_MODELS }
  tallies : OnlineTallies := {}
  modelBreakdown : List (NameId × ModelTokens) := []
  unattributedModelTokens : ModelTokens := {}
  unpricedNativeTokens : ModelTokens := {}
  pricingBreakdown : List ((NameId × Bool) × ModelTokens) := []
  /-- Usage of no named model, at standard and at fast speed. -/
  unattributedPricingTokens : ModelTokens × ModelTokens := ({}, {})
  lastEffectiveTs : Int := -(2 ^ 63)
  foldedLastTs : Option Int := none
  foldedActivePosition : Nat := 0
  observedTurns : Nat := 0
  modelsTruncated : Nat := 0

namespace SessionMetricsAccumulator

def addUnattributed (accumulator : SessionMetricsAccumulator) (fast : Bool) (usage : Usage) :
    SessionMetricsAccumulator :=
  let (standard, quick) := accumulator.unattributedPricingTokens
  { accumulator with
    unattributedModelTokens := accumulator.unattributedModelTokens.addUsage usage
    unattributedPricingTokens :=
      if fast then (standard, quick.addUsage usage) else (standard.addUsage usage, quick) }

def internModel (accumulator : SessionMetricsAccumulator) (name : String) :
    Option NameId × SessionMetricsAccumulator :=
  let (model, interner) := accumulator.modelInterner.intern name
  (model,
    { accumulator with
      modelInterner := interner
      modelsTruncated :=
        match model with
        | none => saturatingAdd accumulator.modelsTruncated 1
        | some _ => accumulator.modelsTruncated })

def addNamed (accumulator : SessionMetricsAccumulator) (model : NameId) (fast : Bool)
    (usage : Usage) : (PricedModel × Bool) × SessionMetricsAccumulator :=
  let known := accumulator.modelBreakdown.any fun row => row.1 == model
  if !known && accumulator.modelBreakdown.length ≥ MAX_MODELS then
    let accumulator := accumulator.addUnattributed fast usage
    ((.fallback, fast),
      { accumulator with modelsTruncated := saturatingAdd accumulator.modelsTruncated 1 })
  else
    ((.named model, fast),
      { accumulator with
        modelBreakdown := addRow model usage accumulator.modelBreakdown
        pricingBreakdown := addRow (model, fast) usage accumulator.pricingBreakdown })

/-- `observe_model_usage`: fold the usage into the breakdowns and name its pricing key. -/
def observeModelUsage (accumulator : SessionMetricsAccumulator) (event : NormalizedEvent) :
    Option (PricedModel × Bool) × SessionMetricsAccumulator :=
  let usage := event.usage
  if usage.inputTokens = 0 ∧ usage.outputTokens = 0 ∧ usage.cacheReadTokens = 0 ∧
      usage.cacheCreationTokens = 0 then (none, accumulator)
  else if event.accounting && blankModel event.model then
    (some (.excluded, false),
      { accumulator with
        unpricedNativeTokens := accumulator.unpricedNativeTokens.addUsage usage })
  else
    let fast := event.speed.any fun speed =>
      eqIgnoreAsciiCase (String.ofList (trimText speed.toList)) "fast"
    match event.model with
    | none => (some (.fallback, fast), accumulator.addUnattributed fast usage)
    | some value =>
      if (modelName value).isEmpty then (some (.excluded, fast), accumulator)
      else
        match accumulator.internModel (modelName value) with
        | (none, accumulator) =>
          (some (.fallback, fast), accumulator.addUnattributed fast usage)
        | (some model, accumulator) =>
          let (priced, accumulator) := accumulator.addNamed model fast usage
          (some priced, accumulator)

/-- `advance_active_position`. -/
def advanceActivePosition (accumulator : SessionMetricsAccumulator) (timestamp : Int) :
    Nat × SessionMetricsAccumulator :=
  if timestamp = -(2 ^ 63) then (0, accumulator)
  else
    let position :=
      match accumulator.foldedLastTs with
      | none => accumulator.foldedActivePosition
      | some previous =>
        let gap := max 0 (min (saturateI64 (timestamp - previous)) IDLE_GAP_MS)
        saturatingAdd accumulator.foldedActivePosition gap.toNat
    (position,
      { accumulator with
        foldedActivePosition := position
        foldedLastTs := some timestamp })

/-- `fold_ready_slot`: a slot leaves the window for the grid. -/
def foldReadySlot (accumulator : SessionMetricsAccumulator) (ready : SlotAggregate) :
    SessionMetricsAccumulator :=
  let (activePosition, accumulator) := accumulator.advanceActivePosition ready.firstTs
  let slots :=
    if accumulator.slots.axis = .ordinal ∧ accumulator.active.activeMs > 0 then
      accumulator.slots.flipToActive fun timestamp =>
        (max (accumulator.active.cumulativeMs timestamp) 0).toNat
    else accumulator.slots
  let position :=
    match slots.axis with
    | .active => activePosition
    | .ordinal => ready.firstOrdinal
  { accumulator with slots := slots.push ready position }

/-- A slot arrives at the window, and the one that leaves is folded. -/
def pushSlot (accumulator : SessionMetricsAccumulator) (slot : SlotAggregate) :
    SessionMetricsAccumulator :=
  let (ready, reorder) := accumulator.reorder.push slot
  let accumulator := { accumulator with reorder }
  match ready with
  | none => accumulator
  | some ready => accumulator.foldReadySlot ready

def openSlot (event : NormalizedEvent) (ordinal : Nat) (effectiveTs : Int) : SlotAggregate :=
  let slot := { SlotAggregate.new ordinal effectiveTs with timestamp := event.tsMs }
  match event.source with
  | .subagent =>
    { slot with
      subagentTokens := saturatingAdd event.usage.effectiveInputTokens event.usage.outputTokens }
  | .parent =>
    { slot with
      tokensIn := event.usage.effectiveInputTokens
      tokensOut := event.usage.outputTokens
      cacheReadTokens := event.usage.cacheReadTokens
      cacheWriteTokens := event.usage.cacheCreationTokens
      contextTokens := event.usage.contextTokens }

def usageSlot (slot : SlotAggregate) (ordinal : Nat) (usageTs : Int) : SlotAggregate :=
  { SlotAggregate.new ordinal usageTs with
    tokensIn := slot.tokensIn
    tokensOut := slot.tokensOut
    cacheReadTokens := slot.cacheReadTokens
    cacheWriteTokens := slot.cacheWriteTokens
    subagentTokens := slot.subagentTokens
    contextTokens := slot.contextTokens
    priced := slot.priced }

/-- What stays at the time of the event. -/
def clearUsage (slot : SlotAggregate) : SlotAggregate :=
  { slot with
    tokensIn := 0
    tokensOut := 0
    cacheReadTokens := 0
    cacheWriteTokens := 0
    subagentTokens := 0
    contextTokens := 0
    priced := [] }

def pricedTokens (usage : Usage) (priced : PricedModel × Bool) : PricedTokens :=
  ⟨priced.1, priced.2, usage.inputTokens, usage.outputTokens, usage.cacheReadTokens,
    usage.cacheCreationTokens, usage.cacheCreation1hTokens⟩

/-- `observe_event`. -/
def observeEvent (accumulator : SessionMetricsAccumulator) (event : NormalizedEvent) :
    SessionMetricsAccumulator :=
  let ordinal := accumulator.observedTurns
  let accumulator :=
    { accumulator with
      observedTurns := saturatingAdd accumulator.observedTurns 1
      tallies := accumulator.tallies.observe event
      active :=
        let active := (event.tsMs.map accumulator.active.observe).getD accumulator.active
        (event.usageTsMs.map active.observe).getD active
      lastEffectiveTs := event.tsMs.getD accumulator.lastEffectiveTs }
  let effectiveTs := event.tsMs.getD accumulator.lastEffectiveTs
  let usageEffectiveTs := event.usageTsMs.getD effectiveTs
  let (priced, accumulator) := accumulator.observeModelUsage event
  let slot :=
    { openSlot event ordinal effectiveTs with
      priced := priced.toList.map (pricedTokens event.usage) }
  if event.usageTsMs.any fun timestamp => some timestamp != event.tsMs then
    (accumulator.pushSlot (usageSlot slot ordinal usageEffectiveTs)).pushSlot (clearUsage slot)
  else accumulator.pushSlot slot

/-- `finish`: every slot leaves the window. -/
def finish (accumulator : SessionMetricsAccumulator) : SessionMetricsAccumulator :=
  let (drained, reorder) := accumulator.reorder.drainSorted
  drained.foldl foldReadySlot { accumulator with reorder }

end SessionMetricsAccumulator

/-! ### Projection -/

structure Bucket where
  tokensIn : Nat := 0
  tokensOut : Nat := 0
  cacheReadTokens : Nat := 0
  cacheWriteTokens : Nat := 0
  subagentTokens : Nat := 0

/-- `fold_slot`. -/
def Bucket.foldSlot (bucket : Bucket) (slot : SlotAggregate) : Bucket where
  tokensIn := saturatingAdd bucket.tokensIn slot.tokensIn
  tokensOut := saturatingAdd bucket.tokensOut slot.tokensOut
  cacheReadTokens := saturatingAdd bucket.cacheReadTokens slot.cacheReadTokens
  cacheWriteTokens := saturatingAdd bucket.cacheWriteTokens slot.cacheWriteTokens
  subagentTokens := saturatingAdd bucket.subagentTokens slot.subagentTokens

/-- `bucket_index`.  `scale` stands for the `f32` arithmetic: the product of the clamped
quotient of two numbers with the resolution, as an integer. -/
def bucketIndex (scale : Int → Int → Nat) (accumulator : SessionMetricsAccumulator)
    (slot : SlotAggregate) : Nat :=
  let activeMs := accumulator.active.activeMs
  let position :=
    if activeMs > 0 then scale (accumulator.active.cumulativeMs slot.firstTs) activeMs
    else if accumulator.observedTurns > 1 then
      scale slot.firstOrdinal (accumulator.observedTurns - 1)
    else 0
  min position (BUCKETS - 1)

/-- `project`: the chart, with what is still in the window. -/
def SessionMetricsAccumulator.buckets (accumulator : SessionMetricsAccumulator)
    (scale : Int → Int → Nat) : List Bucket :=
  (accumulator.slots.slots.map (·.aggregate) ++ accumulator.reorder.entries).foldl
    (fun buckets slot => buckets.modify (bucketIndex scale accumulator slot) (·.foldSlot slot))
    (List.replicate BUCKETS {})

end Antiburn
