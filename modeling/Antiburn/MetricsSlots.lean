/-
Slots of the bounded session metrics.

A slot holds the counts of one or more records.  The reorder window sorts slots
displaced by a bounded number of arrivals, and the progress grid folds them into
a bounded number of positions, whose quantum doubles when the grid is full.
-/
import Antiburn.Lib.Grid
import Mathlib

namespace Antiburn

/-- The reorder window sorts records displaced by at most 63 arrivals. -/
def REORDER_WINDOW : Nat := 64

/-- Chart resolution. -/
def BUCKETS : Nat := 180

/-- Three slots per chart bucket preserve chart shape within the memory ceiling. -/
def SLOTS_PER_BUCKET : Nat := 3

/-- The slot grid has three times the visible chart resolution. -/
def SLOTS : Nat := BUCKETS * SLOTS_PER_BUCKET

/-! ### Slots -/

structure NameId where
  index : Nat
  deriving DecidableEq

inductive PricedModel where
  /-- The event names no usable model. -/
  | fallback
  /-- The event names a model that strips to an empty string.  The tokens are not priced. -/
  | excluded
  /-- The event names an interned model. -/
  | named (name : NameId)
  deriving DecidableEq

/-- The token counts one pricing key contributes to per-bucket cost. -/
structure PricedTokens where
  model : PricedModel
  fast : Bool
  inputTokens : Nat
  outputTokens : Nat
  cacheReadTokens : Nat
  cacheWriteTokens : Nat
  cacheWrite1hTokens : Nat

namespace PricedTokens

def hasTokens (tokens : PricedTokens) : Bool :=
  tokens.inputTokens != 0 || tokens.outputTokens != 0 || tokens.cacheReadTokens != 0 ||
    tokens.cacheWriteTokens != 0 || tokens.cacheWrite1hTokens != 0

def add (tokens other : PricedTokens) : PricedTokens :=
  { tokens with
    inputTokens := saturatingAdd tokens.inputTokens other.inputTokens
    outputTokens := saturatingAdd tokens.outputTokens other.outputTokens
    cacheReadTokens := saturatingAdd tokens.cacheReadTokens other.cacheReadTokens
    cacheWriteTokens := saturatingAdd tokens.cacheWriteTokens other.cacheWriteTokens
    cacheWrite1hTokens := saturatingAdd tokens.cacheWrite1hTokens other.cacheWrite1hTokens }

end PricedTokens

def addPricedTokens (incoming : PricedTokens) : List PricedTokens → List PricedTokens
  | [] => [incoming]
  | entry :: rest =>
    if entry.model = incoming.model ∧ entry.fast = incoming.fast then entry.add incoming :: rest
    else entry :: addPricedTokens incoming rest

/-- `fold_priced_tokens`: an entry with no tokens is skipped. -/
def foldPricedTokens (target : List PricedTokens) (incoming : PricedTokens) : List PricedTokens :=
  if incoming.hasTokens then addPricedTokens incoming target else target

/-- The time and the token counts of one or more records. -/
structure SlotAggregate where
  firstOrdinal : Nat
  lastOrdinal : Nat
  firstKey : Int × Nat
  lastKey : Int × Nat
  firstTs : Int
  timestamp : Option Int
  tokensIn : Nat
  tokensOut : Nat
  cacheReadTokens : Nat
  cacheWriteTokens : Nat
  subagentTokens : Nat
  contextTokens : Nat
  priced : List PricedTokens

/-- Order of keys: by time, then by arrival. -/
def keyLt (a b : Int × Nat) : Bool := a.1 < b.1 || (a.1 == b.1 && a.2 < b.2)

namespace SlotAggregate

def new (ordinal : Nat) (effectiveTs : Int) : SlotAggregate where
  firstOrdinal := ordinal
  lastOrdinal := ordinal
  firstKey := (effectiveTs, ordinal)
  lastKey := (effectiveTs, ordinal)
  firstTs := effectiveTs
  timestamp := none
  tokensIn := 0
  tokensOut := 0
  cacheReadTokens := 0
  cacheWriteTokens := 0
  subagentTokens := 0
  contextTokens := 0
  priced := []

def key (slot : SlotAggregate) : Int × Nat := (slot.firstTs, slot.firstOrdinal)

def merge (slot other : SlotAggregate) : SlotAggregate :=
  let firstKey := if keyLt other.firstKey slot.firstKey then other.firstKey else slot.firstKey
  { firstOrdinal := min slot.firstOrdinal other.firstOrdinal
    lastOrdinal := max slot.lastOrdinal other.lastOrdinal
    firstKey
    lastKey := if keyLt slot.lastKey other.lastKey then other.lastKey else slot.lastKey
    firstTs := firstKey.1
    timestamp :=
      match slot.timestamp, other.timestamp with
      | some left, some right => some (min left right)
      | left, right => left.or right
    tokensIn := saturatingAdd slot.tokensIn other.tokensIn
    tokensOut := saturatingAdd slot.tokensOut other.tokensOut
    cacheReadTokens := saturatingAdd slot.cacheReadTokens other.cacheReadTokens
    cacheWriteTokens := saturatingAdd slot.cacheWriteTokens other.cacheWriteTokens
    subagentTokens := saturatingAdd slot.subagentTokens other.subagentTokens
    contextTokens := max slot.contextTokens other.contextTokens
    priced := other.priced.foldl foldPricedTokens slot.priced }

/-- `clamp_timestamp`. -/
def clampTimestamp (slot : SlotAggregate) (timestamp : Int) : SlotAggregate :=
  { slot with
    firstTs := timestamp
    firstKey := (timestamp, slot.firstKey.2)
    lastKey := (timestamp, slot.lastKey.2) }

end SlotAggregate

/-! ### The reorder window -/

/-- Slots in arrival order, until enough newer ones have arrived. -/
structure ReorderWindow where
  entries : List SlotAggregate := []
  ordered : Bool := true
  lastPopped : Option (Int × Nat) := none
  overflow : Nat := 0

def takeMinimum : List SlotAggregate → Option (SlotAggregate × List SlotAggregate)
  | [] => none
  | slot :: rest =>
    match takeMinimum rest with
    | none => some (slot, [])
    | some (least, others) =>
      if keyLt least.key slot.key then some (least, slot :: others) else some (slot, rest)

def inOrder : List SlotAggregate → Bool
  | slot :: next :: rest => !keyLt next.key slot.key && inOrder (next :: rest)
  | _ => true

namespace ReorderWindow

def clampIfBehind (window : ReorderWindow) (slot : SlotAggregate) : SlotAggregate × ReorderWindow :=
  match window.lastPopped with
  | none => (slot, window)
  | some last =>
    if keyLt slot.key last then
      (slot.clampTimestamp last.1,
        { window with overflow := saturatingAdd window.overflow 1 })
    else (slot, window)

/-- The least slot leaves the window; `none` when the window is empty. -/
def popMinimum (window : ReorderWindow) : Option (SlotAggregate × ReorderWindow) :=
  let taken :=
    if window.ordered then
      match window.entries with
      | [] => none
      | slot :: rest => some (slot, { window with entries := rest })
    else
      (takeMinimum window.entries).map fun (slot, rest) =>
        (slot, { window with entries := rest, ordered := inOrder rest })
  taken.map fun (slot, window) =>
    let (slot, window) := window.clampIfBehind slot
    (slot, { window with lastPopped := some slot.key })

/-- A slot arrives, and the least one leaves a full window first. -/
def push (window : ReorderWindow) (slot : SlotAggregate) : Option SlotAggregate × ReorderWindow :=
  let (ready, window) :=
    if window.entries.length = REORDER_WINDOW then
      match window.popMinimum with
      | some (slot, window) => (some slot, window)
      | none => (none, window)
    else (none, window)
  let (slot, window) := window.clampIfBehind slot
  let ordered :=
    match window.entries.getLast? with
    | some last => window.ordered && !keyLt slot.key last.key
    | none => window.ordered
  (ready, { window with entries := window.entries ++ [slot], ordered })

def drainLoop : Nat → ReorderWindow → List SlotAggregate × ReorderWindow
  | 0, window => ([], window)
  | fuel + 1, window =>
    match window.popMinimum with
    | none => ([], window)
    | some (slot, window) =>
      let (rest, window) := drainLoop fuel window
      (slot :: rest, window)

/-- `drain_sorted`. -/
def drainSorted (window : ReorderWindow) : List SlotAggregate × ReorderWindow :=
  let (drained, window) := window.drainLoop window.entries.length
  (drained, { window with ordered := true })

end ReorderWindow

/-! ### The progress grid -/

inductive SlotAxis where
  | ordinal
  | active
  deriving DecidableEq

structure PositionedSlot where
  index : Nat
  aggregate : SlotAggregate

def Positioned (slots : List PositionedSlot) : Prop :=
  slots.Pairwise fun slot next => slot.index < next.index

def insertPositioned (new : PositionedSlot) : List PositionedSlot → List PositionedSlot
  | [] => [new]
  | slot :: rest =>
    if new.index < slot.index then new :: slot :: rest else slot :: insertPositioned new rest

def mergePositioned (index : Nat) (aggregate : SlotAggregate) (slots : List PositionedSlot) :
    List PositionedSlot :=
  slots.map fun slot =>
    if slot.index = index then { slot with aggregate := slot.aggregate.merge aggregate } else slot

def halvePositions (current : PositionedSlot) : List PositionedSlot → List PositionedSlot
  | [] => [current]
  | slot :: rest =>
    if current.index = slot.index / 2 then
      halvePositions { current with aggregate := current.aggregate.merge slot.aggregate } rest
    else current :: halvePositions { slot with index := slot.index / 2 } rest

def compactPositions : List PositionedSlot → List PositionedSlot
  | [] => []
  | slot :: rest => halvePositions { slot with index := slot.index / 2 } rest

/-- A slot as a cell of a grid. -/
def PositionedSlot.cell (slot : PositionedSlot) : Cell SlotAggregate := ⟨slot.index, slot.aggregate⟩

variable {slots : List PositionedSlot}

lemma positioned_iff : Positioned slots ↔ Cell.Sorted (slots.map (·.cell)) := by
  rw [Cell.Sorted, List.pairwise_map]
  rfl

lemma map_insertPositioned (new : PositionedSlot) (slots : List PositionedSlot) :
    (insertPositioned new slots).map (·.cell) = Cell.insert new.cell (slots.map (·.cell)) := by
  induction slots with
  | nil => rfl
  | cons slot rest ih =>
    rw [insertPositioned, List.map_cons, Cell.insert, ← ih]
    exact apply_ite _ _ _ _

lemma map_mergePositioned (index : Nat) (aggregate : SlotAggregate) (slots : List PositionedSlot) :
    (mergePositioned index aggregate slots).map (·.cell) =
      Cell.mergeAt SlotAggregate.merge index aggregate (slots.map (·.cell)) := by
  rw [mergePositioned, Cell.mergeAt, List.map_map, List.map_map]
  exact List.map_congr_left fun slot _ => apply_ite _ _ _ _

lemma map_halvePositions (current : PositionedSlot) (slots : List PositionedSlot) :
    (halvePositions current slots).map (·.cell) =
      Cell.halveFrom SlotAggregate.merge current.cell (slots.map (·.cell)) := by
  induction slots generalizing current with
  | nil => rfl
  | cons slot rest ih =>
    rw [halvePositions, List.map_cons, Cell.halveFrom, apply_ite (List.map _), ih, List.map_cons, ih]
    rfl

lemma map_compactPositions (slots : List PositionedSlot) :
    (compactPositions slots).map (·.cell) =
      Cell.halve SlotAggregate.merge (slots.map (·.cell)) := by
  cases slots with
  | nil => rfl
  | cons slot rest => exact map_halvePositions _ _

lemma positioned_insert {new : PositionedSlot}
    (h : Positioned slots) (hnew : ∀ slot ∈ slots, slot.index ≠ new.index) :
    Positioned (insertPositioned new slots) := by
  rw [positioned_iff, map_insertPositioned]
  exact Cell.sorted_insert (positioned_iff.mp h)
    (Cell.valueAt_eq_none.mpr (List.forall_mem_map.mpr hnew))

lemma positioned_merge {index : Nat} {aggregate : SlotAggregate}
    (h : Positioned slots) : Positioned (mergePositioned index aggregate slots) := by
  rw [positioned_iff, map_mergePositioned]
  exact Cell.sorted_mergeAt (positioned_iff.mp h)

lemma positioned_compact (h : Positioned slots) :
    Positioned (compactPositions slots) := by
  rw [positioned_iff, map_compactPositions]
  exact Cell.sorted_halve (positioned_iff.mp h)

def positionSum (slots : List PositionedSlot) : Nat := (slots.map (·.index)).sum

lemma positionSum_eq (slots : List PositionedSlot) :
    positionSum slots = Cell.indexSum (slots.map (·.cell)) := by
  rw [Cell.indexSum, List.map_map]
  rfl

lemma positionSum_compact (h : Positioned slots)
    (hlen : 2 ≤ slots.length) : positionSum (compactPositions slots) < positionSum slots := by
  rw [positionSum_eq, positionSum_eq, map_compactPositions]
  exact Cell.indexSum_halve _ (positioned_iff.mp h) (hlen.trans (List.length_map _).ge)

structure ProgressSlots where
  slots : List PositionedSlot := []
  positioned : Positioned slots := by exact .nil
  quantum : Nat := 0
  axis : SlotAxis := .ordinal
  compactions : Nat := 0

namespace ProgressSlots

/-- Half as many positions. -/
def doubleQuantum (grid : ProgressSlots) : ProgressSlots :=
  { grid with
    slots := compactPositions grid.slots
    positioned := positioned_compact grid.positioned
    quantum := max (min (grid.quantum * 2) U64_MAX) 1
    compactions := min (grid.compactions + 1) (2 ^ 32 - 1) }

/-- The loop of `push`: merge, insert, or halve the positions and try again. -/
def pushLoop (grid : ProgressSlots) (slot : SlotAggregate) (position : Nat) : ProgressSlots :=
  let index := position / grid.quantum
  if hfound : ∃ slot ∈ grid.slots, slot.index = index then
    { grid with
      slots := mergePositioned index slot grid.slots
      positioned := positioned_merge grid.positioned }
  else if hfull : grid.slots.length < SLOTS then
    { grid with
      slots := insertPositioned ⟨index, slot⟩ grid.slots
      positioned :=
        positioned_insert grid.positioned fun slot hslot heq => hfound ⟨slot, hslot, heq⟩ }
  else grid.doubleQuantum.pushLoop slot position
termination_by positionSum grid.slots
decreasing_by
  exact positionSum_compact grid.positioned
    (Nat.le_trans (by decide) (Nat.not_lt.mp hfull))

def push (grid : ProgressSlots) (slot : SlotAggregate) (position : Nat) : ProgressSlots :=
  let grid := if grid.quantum = 0 then { grid with quantum := 1 } else grid
  grid.pushLoop slot position

lemma positioned_nil : Positioned [] := .nil

def flipToActive (grid : ProgressSlots) (position : Int → Nat) : ProgressSlots :=
  if grid.axis = .active then grid
  else
    (grid.slots.map (·.aggregate)).foldl
      (fun flipped aggregate => flipped.push aggregate (position aggregate.firstTs))
      { positioned := positioned_nil, quantum := 1, axis := .active, compactions := grid.compactions }

end ProgressSlots

end Antiburn
