/-
No token is lost between an event and its chart bucket.

Every hand-over (window, grid, doubling, flip, projection) keeps the sum of each
count over what it holds, as long as the sum fits its counter.  `tokens_conserved`
adds the hand-overs up over whole runs.
-/
import Antiburn.Metrics

namespace Antiburn

/-! ### Counts of slots -/

inductive TokenCount where
  | input
  | output
  | cacheRead
  | cacheWrite
  | subagent

namespace SlotAggregate

def count (slot : SlotAggregate) : TokenCount → Nat
  | .input => slot.tokensIn
  | .output => slot.tokensOut
  | .cacheRead => slot.cacheReadTokens
  | .cacheWrite => slot.cacheWriteTokens
  | .subagent => slot.subagentTokens

lemma merge_count (slot other : SlotAggregate) (c : TokenCount) :
    (slot.merge other).count c = saturatingAdd (slot.count c) (other.count c) := by
  cases c <;> rfl

@[simp] lemma clampTimestamp_count (slot : SlotAggregate) (timestamp : Int) (c : TokenCount) :
    (slot.clampTimestamp timestamp).count c = slot.count c := by
  cases c <;> rfl

end SlotAggregate

def slotSum (c : TokenCount) (slots : List SlotAggregate) : Nat :=
  (slots.map (·.count c)).sum

@[simp] lemma slotSum_nil (c : TokenCount) : slotSum c [] = 0 := rfl

@[simp] lemma slotSum_cons (c : TokenCount) (slot : SlotAggregate) (slots : List SlotAggregate) :
    slotSum c (slot :: slots) = slot.count c + slotSum c slots := by
  rw [slotSum, List.map_cons, List.sum_cons, slotSum]

@[simp] lemma slotSum_append (c : TokenCount) (slots slots' : List SlotAggregate) :
    slotSum c (slots ++ slots') = slotSum c slots + slotSum c slots' := by
  rw [slotSum, List.map_append, List.sum_append, slotSum, slotSum]

/-! ### The reorder window -/

lemma takeMinimum_slotSum {slots rest : List SlotAggregate} {least : SlotAggregate}
    (c : TokenCount) (h : takeMinimum slots = some (least, rest)) :
    slotSum c slots = least.count c + slotSum c rest := by
  induction slots generalizing least rest with
  | nil => cases h
  | cons slot slots ih =>
    rw [takeMinimum] at h
    cases hrest : takeMinimum slots with
    | none =>
      rw [hrest] at h
      cases h
      cases slots with
      | nil => rfl
      | cons next more =>
        rw [takeMinimum] at hrest
        split at hrest
        · cases hrest
        · split_ifs at hrest
    | some taken =>
      obtain ⟨other, others⟩ := taken
      rw [hrest] at h
      dsimp only at h
      split_ifs at h
      · cases h
        rw [slotSum_cons, slotSum_cons, ih hrest]
        omega
      · cases h
        rw [slotSum_cons]

namespace ReorderWindow

lemma clampIfBehind_spec (window : ReorderWindow) (slot : SlotAggregate) (c : TokenCount) :
    (window.clampIfBehind slot).1.count c = slot.count c ∧
      (window.clampIfBehind slot).2.entries = window.entries := by
  unfold clampIfBehind
  split
  · exact ⟨rfl, rfl⟩
  · split_ifs
    · exact ⟨slot.clampTimestamp_count _ c, rfl⟩
    · exact ⟨rfl, rfl⟩

lemma popMinimum_slotSum {window window' : ReorderWindow} {slot : SlotAggregate} (c : TokenCount)
    (h : window.popMinimum = some (slot, window')) :
    slotSum c window.entries = slot.count c + slotSum c window'.entries := by
  unfold popMinimum at h
  rw [Option.map_eq_some_iff] at h
  obtain ⟨⟨taken, rest⟩, htaken, h⟩ := h
  have hsum : slotSum c window.entries = taken.count c + slotSum c rest.entries := by
    split_ifs at htaken
    · split at htaken
      · cases htaken
      · rename_i first others hents
        cases htaken
        rw [hents, slotSum_cons]
    · rw [Option.map_eq_some_iff] at htaken
      obtain ⟨⟨least, others⟩, hleast, htaken⟩ := htaken
      cases htaken
      exact takeMinimum_slotSum c hleast
  have hclamp := rest.clampIfBehind_spec taken c
  have hslot : (rest.clampIfBehind taken).1 = slot := congrArg Prod.fst h
  have hents : (rest.clampIfBehind taken).2.entries = window'.entries :=
    congrArg (fun popped => popped.2.entries) h
  rw [hsum, ← hslot, ← hents, hclamp.1, hclamp.2]

lemma push_slotSum (window : ReorderWindow) (slot : SlotAggregate) (c : TokenCount) :
    slotSum c (window.push slot).1.toList + slotSum c (window.push slot).2.entries =
      slotSum c window.entries + slot.count c := by
  have hlast : ∀ (ready : Option SlotAggregate) (window' : ReorderWindow),
      slotSum c ready.toList + slotSum c window'.entries = slotSum c window.entries →
      slotSum c ready.toList + slotSum c ((window'.clampIfBehind slot).2.entries ++
        [(window'.clampIfBehind slot).1]) = slotSum c window.entries + slot.count c := by
    intro ready window' hsum
    have hclamp := window'.clampIfBehind_spec slot c
    rw [slotSum_append, slotSum_cons, slotSum_nil, hclamp.1, hclamp.2]
    omega
  by_cases hfull : window.entries.length = REORDER_WINDOW
  · cases hpop : window.popMinimum with
    | none =>
      simp only [push, if_pos hfull, hpop]
      exact hlast none window (by simp)
    | some popped =>
      obtain ⟨least, rest⟩ := popped
      simp only [push, if_pos hfull, hpop]
      exact hlast (some least) rest (by rw [popMinimum_slotSum c hpop]; simp)
  · simp only [push, if_neg hfull]
    exact hlast none window (by simp)

lemma drainLoop_slotSum (fuel : Nat) (window : ReorderWindow) (c : TokenCount) :
    slotSum c (window.drainLoop fuel).1 + slotSum c (window.drainLoop fuel).2.entries =
      slotSum c window.entries := by
  induction fuel generalizing window with
  | zero => simp [drainLoop]
  | succ fuel ih =>
    rw [drainLoop]
    cases hpop : window.popMinimum with
    | none => simp
    | some popped =>
      obtain ⟨slot, window'⟩ := popped
      have hrest := ih window'
      dsimp only
      rw [slotSum_cons, popMinimum_slotSum c hpop]
      omega

lemma drainSorted_slotSum (window : ReorderWindow) (c : TokenCount) :
    slotSum c window.drainSorted.1 + slotSum c window.drainSorted.2.entries =
      slotSum c window.entries :=
  window.drainLoop_slotSum window.entries.length c

end ReorderWindow

/-! ### The progress grid -/

def gridSum (c : TokenCount) (slots : List PositionedSlot) : Nat :=
  slotSum c (slots.map (·.aggregate))

@[simp] lemma gridSum_cons (c : TokenCount) (slot : PositionedSlot)
    (slots : List PositionedSlot) :
    gridSum c (slot :: slots) = slot.aggregate.count c + gridSum c slots := by
  rw [gridSum, List.map_cons, slotSum_cons, gridSum]

lemma insertPositioned_gridSum (c : TokenCount) (new : PositionedSlot)
    (slots : List PositionedSlot) :
    gridSum c (insertPositioned new slots) = new.aggregate.count c + gridSum c slots := by
  induction slots with
  | nil => rw [insertPositioned, gridSum_cons]
  | cons slot rest ih =>
    rw [insertPositioned]
    split_ifs
    · rw [gridSum_cons]
    · rw [gridSum_cons, ih, gridSum_cons]
      omega

lemma mergePositioned_gridSum (c : TokenCount) {index : Nat} (aggregate : SlotAggregate)
    {slots : List PositionedSlot} (h : Positioned slots) (hfound : ∃ slot ∈ slots, slot.index = index)
    (hfits : gridSum c slots + aggregate.count c ≤ U64_MAX) :
    gridSum c (mergePositioned index aggregate slots) = gridSum c slots + aggregate.count c := by
  induction slots with
  | nil => simp at hfound
  | cons slot rest ih =>
    have hrest := List.pairwise_cons.mp h
    rw [gridSum_cons] at hfits
    have hstep : mergePositioned index aggregate (slot :: rest) =
        (if slot.index = index then { slot with aggregate := slot.aggregate.merge aggregate }
          else slot) :: mergePositioned index aggregate rest := by
      rw [mergePositioned, List.map_cons, mergePositioned]
    rw [hstep, gridSum_cons, gridSum_cons]
    by_cases heq : slot.index = index
    · -- the positions behind it are others
      have hsame : mergePositioned index aggregate rest = rest := by
        refine (List.map_congr_left fun other hother => ?_).trans (List.map_id rest)
        have hlt := hrest.1 other hother
        rw [if_neg (by omega)]
        rfl
      rw [if_pos heq, hsame]
      dsimp only
      rw [SlotAggregate.merge_count, saturatingAdd_of_le (by omega)]
      omega
    · have hfound' : ∃ other ∈ rest, other.index = index := by
        obtain ⟨other, hother, hindex⟩ := hfound
        rcases List.mem_cons.mp hother with rfl | hmem
        · exact absurd hindex heq
        · exact ⟨other, hmem, hindex⟩
      rw [if_neg heq, ih hrest.2 hfound' (by omega)]
      omega

lemma halvePositions_gridSum (c : TokenCount) (current : PositionedSlot)
    (slots : List PositionedSlot)
    (hfits : current.aggregate.count c + gridSum c slots ≤ U64_MAX) :
    gridSum c (halvePositions current slots) = current.aggregate.count c + gridSum c slots := by
  induction slots generalizing current with
  | nil => rw [halvePositions, gridSum_cons]
  | cons slot rest ih =>
    rw [gridSum_cons] at hfits
    rw [halvePositions, gridSum_cons]
    split_ifs
    · have hmerge : (current.aggregate.merge slot.aggregate).count c =
          current.aggregate.count c + slot.aggregate.count c := by
        rw [SlotAggregate.merge_count, saturatingAdd_of_le (by omega)]
      rw [ih]
      · dsimp only
        rw [hmerge]
        omega
      · dsimp only
        rw [hmerge]
        omega
    · rw [gridSum_cons, ih]
      dsimp only
      omega

lemma compactPositions_gridSum (c : TokenCount) (slots : List PositionedSlot)
    (hfits : gridSum c slots ≤ U64_MAX) :
    gridSum c (compactPositions slots) = gridSum c slots := by
  cases slots with
  | nil => rfl
  | cons slot rest =>
    rw [gridSum_cons] at hfits
    refine (halvePositions_gridSum c { slot with index := slot.index / 2 } rest hfits).trans ?_
    rw [gridSum_cons]

namespace ProgressSlots

section

variable (c : TokenCount) (grid : ProgressSlots) (slot : SlotAggregate) (pos : Nat)
  (hfits : gridSum c grid.slots + slot.count c ≤ U64_MAX)
include c grid slot pos hfits

lemma pushLoop_gridSum :
    gridSum c (grid.pushLoop slot pos).slots = gridSum c grid.slots + slot.count c := by
  induction grid using pushLoop.induct pos with
  | case1 grid index hfound =>
    rw [pushLoop, dif_pos hfound]
    exact mergePositioned_gridSum c slot grid.positioned hfound hfits
  | case2 grid index hfound hfull =>
    rw [pushLoop, dif_neg hfound, dif_pos hfull]
    show gridSum c (insertPositioned ⟨index, slot⟩ grid.slots) = _
    rw [insertPositioned_gridSum]
    exact Nat.add_comm _ _
  | case3 grid index hfound hfull ih =>
    have hsum : gridSum c grid.doubleQuantum.slots = gridSum c grid.slots :=
      compactPositions_gridSum c grid.slots (by omega)
    rw [pushLoop, dif_neg hfound, dif_neg hfull, ih (by rw [hsum]; exact hfits), hsum]

lemma push_gridSum :
    gridSum c (grid.push slot pos).slots = gridSum c grid.slots + slot.count c := by
  unfold push
  dsimp only
  split_ifs
  · exact pushLoop_gridSum c _ slot pos hfits
  · exact pushLoop_gridSum c grid slot pos hfits

end

lemma flipToActive_gridSum (c : TokenCount) (grid : ProgressSlots) (pos : Int → Nat)
    (hfits : gridSum c grid.slots ≤ U64_MAX) :
    gridSum c (grid.flipToActive pos).slots = gridSum c grid.slots := by
  unfold flipToActive
  split_ifs
  · rfl
  · have hfold (aggregates : List SlotAggregate) (flipped : ProgressSlots)
        (h : gridSum c flipped.slots + slotSum c aggregates ≤ U64_MAX) :
        gridSum c (aggregates.foldl (fun flipped aggregate =>
          flipped.push aggregate (pos aggregate.firstTs)) flipped).slots =
            gridSum c flipped.slots + slotSum c aggregates := by
      induction aggregates generalizing flipped with
      | nil => rfl
      | cons aggregate rest ih =>
        rw [slotSum_cons] at h
        have hpush := push_gridSum c flipped aggregate (pos aggregate.firstTs) (by omega)
        rw [List.foldl_cons, ih _ (by rw [hpush]; omega), hpush, slotSum_cons]
        omega
    have hempty : gridSum c [] = 0 := rfl
    refine (hfold (grid.slots.map (·.aggregate)) _ ?_).trans ?_
    · dsimp only
      rw [hempty, Nat.zero_add]
      exact hfits
    · dsimp only
      rw [hempty, Nat.zero_add]
      rfl

end ProgressSlots

/-! ### The chart -/

namespace SessionMetricsAccumulator

/-- Sum of a count over everything the accumulator holds for the chart. -/
def held (acc : SessionMetricsAccumulator) (c : TokenCount) : Nat :=
  gridSum c acc.slots.slots + slotSum c acc.reorder.entries

lemma foldReadySlot_held (acc : SessionMetricsAccumulator) (ready : SlotAggregate)
    (c : TokenCount) (hfits : acc.held c + ready.count c ≤ U64_MAX) :
    (acc.foldReadySlot ready).held c = acc.held c + ready.count c := by
  have hadvance : (acc.advanceActivePosition ready.firstTs).2.slots = acc.slots ∧
      (acc.advanceActivePosition ready.firstTs).2.reorder = acc.reorder := by
    unfold advanceActivePosition
    split_ifs <;> exact ⟨rfl, rfl⟩
  unfold foldReadySlot held at *
  dsimp only
  generalize acc.advanceActivePosition ready.firstTs = advanced at hadvance ⊢
  obtain ⟨activePosition, accumulator'⟩ := advanced
  obtain ⟨hslots, hreord⟩ := hadvance
  dsimp only at hslots hreord ⊢
  rw [← hslots, ← hreord] at hfits ⊢
  -- the flip changes positions only
  have hflip : gridSum c (if accumulator'.slots.axis = .ordinal ∧ accumulator'.active.activeMs > 0
      then accumulator'.slots.flipToActive fun timestamp =>
        (max (accumulator'.active.cumulativeMs timestamp) 0).toNat
      else accumulator'.slots).slots = gridSum c accumulator'.slots.slots := by
    split_ifs
    · exact ProgressSlots.flipToActive_gridSum c _ _ (by omega)
    · rfl
  rw [ProgressSlots.push_gridSum c _ _ _ (by rw [hflip]; omega), hflip]
  omega

lemma pushSlot_held (acc : SessionMetricsAccumulator) (slot : SlotAggregate)
    (c : TokenCount) (hfits : acc.held c + slot.count c ≤ U64_MAX) :
    (acc.pushSlot slot).held c = acc.held c + slot.count c := by
  have hpush := acc.reorder.push_slotSum slot c
  unfold pushSlot
  generalize acc.reorder.push slot = pushed at hpush ⊢
  obtain ⟨ready, reorder⟩ := pushed
  dsimp only at hpush ⊢
  have hheld : ({ acc with reorder } : SessionMetricsAccumulator).held c =
      gridSum c acc.slots.slots + slotSum c reorder.entries := rfl
  cases ready with
  | none =>
    simp only [Option.toList_none, slotSum_nil] at hpush
    rw [hheld]
    unfold held
    omega
  | some ready =>
    simp only [Option.toList_some, slotSum_cons, slotSum_nil] at hpush
    unfold held at hfits
    dsimp only
    rw [foldReadySlot_held _ ready c (by rw [hheld]; omega), hheld]
    unfold held
    omega

lemma foldl_foldReadySlot_held (slots : List SlotAggregate)
    (acc : SessionMetricsAccumulator) (c : TokenCount)
    (hfits : acc.held c + slotSum c slots ≤ U64_MAX) :
    (slots.foldl foldReadySlot acc).held c = acc.held c + slotSum c slots := by
  induction slots generalizing acc with
  | nil => rfl
  | cons slot rest ih =>
    rw [slotSum_cons] at hfits
    have hfold := foldReadySlot_held acc slot c (by omega)
    rw [List.foldl_cons, ih _ (by rw [hfold]; omega), hfold, slotSum_cons]
    omega

lemma finish_held (acc : SessionMetricsAccumulator) (c : TokenCount)
    (hfits : acc.held c ≤ U64_MAX) : acc.finish.held c = acc.held c := by
  have hdrain := acc.reorder.drainSorted_slotSum c
  unfold finish
  generalize acc.reorder.drainSorted = drained at hdrain ⊢
  obtain ⟨slots, reorder⟩ := drained
  dsimp only at hdrain ⊢
  have hheld : ({ acc with reorder } : SessionMetricsAccumulator).held c =
      gridSum c acc.slots.slots + slotSum c reorder.entries := rfl
  unfold held at hfits
  rw [foldl_foldReadySlot_held slots _ c (by rw [hheld]; omega), hheld]
  unfold held
  omega

def eventCount (event : NormalizedEvent) (c : TokenCount) : Nat :=
  (openSlot event 0 0).count c

lemma openSlot_count (event : NormalizedEvent) (ordinal : Nat) (effectiveTs : Int)
    (priced : List PricedTokens) (c : TokenCount) :
    ({ openSlot event ordinal effectiveTs with priced } : SlotAggregate).count c =
      eventCount event c := by
  unfold eventCount openSlot
  cases event.source <;> cases c <;> rfl

lemma usageSlot_count (slot : SlotAggregate) (ordinal : Nat) (usageTs : Int) (c : TokenCount) :
    (usageSlot slot ordinal usageTs).count c = slot.count c := by
  cases c <;> rfl

lemma clearUsage_count (slot : SlotAggregate) (c : TokenCount) : (clearUsage slot).count c = 0 := by
  cases c <;> rfl

/-- Everything that the usage of an event can do to the breakdowns. -/
inductive UsageCase (accumulator : SessionMetricsAccumulator) (event : NormalizedEvent) :
    SessionMetricsAccumulator → Prop
  /-- There are no tokens. -/
  | idle (hinput : event.usage.inputTokens = 0) (houtput : event.usage.outputTokens = 0)
      (hread : event.usage.cacheReadTokens = 0) (hcreation : event.usage.cacheCreationTokens = 0) :
      UsageCase accumulator event accumulator
  /-- Native accounting without a model. -/
  | unpriced (haccounting : (event.accounting && blankModel event.model) = true) :
      UsageCase accumulator event
        { accumulator with
          unpricedNativeTokens := accumulator.unpricedNativeTokens.addUsage event.usage }
  /-- The model name is empty. -/
  | excluded {value : String} (haccounting : (event.accounting && blankModel event.model) = false)
      (hmodel : event.model = some value) (hempty : (modelName value).isEmpty = true) :
      UsageCase accumulator event accumulator
  /-- There is no model name, or no room for it. -/
  | unattributed (fast : Bool) (interner : Interner) (truncated : Nat)
      (haccounting : (event.accounting && blankModel event.model) = false)
      (hmodel : ∀ value, event.model = some value → (modelName value).isEmpty = false) :
      UsageCase accumulator event
        { accumulator with
          modelInterner := interner
          modelsTruncated := truncated
          unattributedModelTokens := accumulator.unattributedModelTokens.addUsage event.usage
          unattributedPricingTokens :=
            if fast then
              (accumulator.unattributedPricingTokens.1,
                accumulator.unattributedPricingTokens.2.addUsage event.usage)
            else
              (accumulator.unattributedPricingTokens.1.addUsage event.usage,
                accumulator.unattributedPricingTokens.2) }
  /-- The usage goes to a named model. -/
  | named (fast : Bool) (model : NameId) (interner : Interner) (truncated : Nat) {value : String}
      (haccounting : (event.accounting && blankModel event.model) = false)
      (hmodel : event.model = some value) (hname : (modelName value).isEmpty = false) :
      UsageCase accumulator event
        { accumulator with
          modelInterner := interner
          modelsTruncated := truncated
          modelBreakdown := addRow model event.usage accumulator.modelBreakdown
          pricingBreakdown := addRow (model, fast) event.usage accumulator.pricingBreakdown }

section

variable (acc : SessionMetricsAccumulator) (event : NormalizedEvent)
include acc event

lemma observeModelUsage_cases :
    UsageCase acc event (acc.observeModelUsage event).2 := by
  unfold observeModelUsage
  dsimp only
  split_ifs with hzero haccounting
  · exact .idle hzero.1 hzero.2.1 hzero.2.2.1 hzero.2.2.2
  · exact .unpriced haccounting
  · rw [Bool.not_eq_true] at haccounting
    generalize (event.speed.any fun speed =>
      eqIgnoreAsciiCase (String.ofList (trimText speed.toList)) "fast") = fast
    cases hmodel : event.model with
    | none =>
      refine .unattributed fast acc.modelInterner acc.modelsTruncated haccounting
        fun value h => ?_
      rw [hmodel] at h
      cases h
    | some value =>
      dsimp only
      split_ifs with hempty
      · exact .excluded haccounting hmodel hempty
      · rw [Bool.not_eq_true] at hempty
        have hnamed : ∀ value', event.model = some value' → (modelName value').isEmpty = false := by
          intro value' h
          rw [hmodel] at h
          cases h
          exact hempty
        unfold internModel
        dsimp only
        cases hintern : (acc.modelInterner.intern (modelName value)).1 with
        | none => exact .unattributed fast _ _ haccounting hnamed
        | some model =>
          dsimp only
          unfold addNamed
          dsimp only
          split_ifs
          · exact .unattributed fast _ _ haccounting hnamed
          · exact .named fast model _ _ haccounting hmodel hempty

lemma observeModelUsage_frame :
    (acc.observeModelUsage event).2.slots = acc.slots ∧
      (acc.observeModelUsage event).2.reorder = acc.reorder ∧
      (acc.observeModelUsage event).2.tallies = acc.tallies := by
  have hcase := acc.observeModelUsage_cases event
  generalize (acc.observeModelUsage event).2 = accumulator' at hcase ⊢
  cases hcase <;> exact ⟨rfl, rfl, rfl⟩

lemma observeEvent_held (c : TokenCount) (hfits : acc.held c + eventCount event c ≤ U64_MAX) :
    (acc.observeEvent event).held c = acc.held c + eventCount event c := by
  unfold observeEvent
  dsimp only
  generalize hstart : ({ acc with
      observedTurns := saturatingAdd acc.observedTurns 1
      tallies := acc.tallies.observe event
      active :=
        let active := (event.tsMs.map acc.active.observe).getD acc.active
        (event.usageTsMs.map active.observe).getD active
      lastEffectiveTs := event.tsMs.getD acc.lastEffectiveTs } :
        SessionMetricsAccumulator) = start
  have hframe := start.observeModelUsage_frame event
  generalize start.observeModelUsage event = observed at hframe ⊢
  obtain ⟨priced, accumulator'⟩ := observed
  obtain ⟨hslots, hreord, -⟩ := hframe
  dsimp only at hslots hreord ⊢
  have hheld : accumulator'.held c = acc.held c := by
    unfold held
    rw [hslots, hreord, ← hstart]
  split_ifs
  · have husage : ∀ slot ordinal usageTs, slot.count c = eventCount event c →
        (accumulator'.pushSlot (usageSlot slot ordinal usageTs)).held c =
          acc.held c + eventCount event c := by
      intro slot ordinal usageTs hcount
      have hslot := usageSlot_count slot ordinal usageTs c
      rw [pushSlot_held _ _ c (by rw [hheld, hslot, hcount]; exact hfits), hheld, hslot, hcount]
    have hopen := openSlot_count event acc.observedTurns
      (event.tsMs.getD (event.tsMs.getD acc.lastEffectiveTs))
      (priced.toList.map (pricedTokens event.usage)) c
    rw [pushSlot_held _ _ c (by rw [husage _ _ _ hopen, clearUsage_count]; exact hfits),
      husage _ _ _ hopen, clearUsage_count]
    rfl
  · have hopen := openSlot_count event acc.observedTurns
      (event.tsMs.getD (event.tsMs.getD acc.lastEffectiveTs))
      (priced.toList.map (pricedTokens event.usage)) c
    rw [pushSlot_held _ _ c (by rw [hheld, hopen]; exact hfits), hheld, hopen]

end

end SessionMetricsAccumulator

/-! ### Projection -/

namespace Bucket

def count (bucket : Bucket) : TokenCount → Nat
  | .input => bucket.tokensIn
  | .output => bucket.tokensOut
  | .cacheRead => bucket.cacheReadTokens
  | .cacheWrite => bucket.cacheWriteTokens
  | .subagent => bucket.subagentTokens

lemma foldSlot_count (bucket : Bucket) (slot : SlotAggregate) (c : TokenCount) :
    (bucket.foldSlot slot).count c = saturatingAdd (bucket.count c) (slot.count c) := by
  cases c <;> rfl

end Bucket

def bucketSum (c : TokenCount) (buckets : List Bucket) : Nat := (buckets.map (·.count c)).sum

lemma bucketSum_modify (c : TokenCount) (slot : SlotAggregate) {index : Nat}
    {buckets : List Bucket} (hindex : index < buckets.length)
    (hfits : bucketSum c buckets + slot.count c ≤ U64_MAX) :
    bucketSum c (buckets.modify index (·.foldSlot slot)) = bucketSum c buckets + slot.count c := by
  have hcons (bucket : Bucket) (rest : List Bucket) :
      bucketSum c (bucket :: rest) = bucket.count c + bucketSum c rest := by
    rw [bucketSum, List.map_cons, List.sum_cons, bucketSum]
  induction buckets generalizing index with
  | nil => cases hindex
  | cons bucket rest ih =>
    rw [hcons] at hfits
    cases index with
    | zero =>
      rw [List.modify_zero_cons, hcons, hcons, Bucket.foldSlot_count,
        saturatingAdd_of_le (by omega)]
      omega
    | succ index =>
      rw [List.modify_succ_cons, hcons, hcons,
        ih (Nat.lt_of_succ_lt_succ hindex) (by omega)]
      omega

namespace SessionMetricsAccumulator

lemma bucketIndex_lt (scale : Int → Int → Nat) (acc : SessionMetricsAccumulator)
    (slot : SlotAggregate) : bucketIndex scale acc slot < BUCKETS := by
  unfold bucketIndex
  exact Nat.lt_of_le_of_lt (Nat.min_le_right _ _) (by decide)

lemma bucketSum_buckets (acc : SessionMetricsAccumulator) (scale : Int → Int → Nat)
    (c : TokenCount) (hfits : acc.held c ≤ U64_MAX) :
    bucketSum c (acc.buckets scale) = acc.held c := by
  have hfold (slots : List SlotAggregate) (buckets : List Bucket)
      (hlen : buckets.length = BUCKETS)
      (hfits : bucketSum c buckets + slotSum c slots ≤ U64_MAX) :
      bucketSum c (slots.foldl (fun buckets slot =>
        buckets.modify (bucketIndex scale acc slot) (·.foldSlot slot)) buckets) =
          bucketSum c buckets + slotSum c slots := by
    induction slots generalizing buckets with
    | nil => rfl
    | cons slot rest ih =>
      rw [slotSum_cons] at hfits
      have hindex : bucketIndex scale acc slot < buckets.length := by
        rw [hlen]
        exact bucketIndex_lt scale acc slot
      have hmodify := bucketSum_modify c slot hindex (by omega)
      rw [List.foldl_cons, ih _ (by rw [List.length_modify, hlen]) (by rw [hmodify]; omega),
        hmodify, slotSum_cons]
      omega
  have hempty : bucketSum c (List.replicate BUCKETS {}) = 0 := by
    rw [bucketSum, List.map_replicate, List.sum_replicate]
    cases c <;> rfl
  have hslots : slotSum c (acc.slots.slots.map (·.aggregate) ++
      acc.reorder.entries) = acc.held c := slotSum_append c _ _
  unfold buckets
  rw [hfold _ _ List.length_replicate (by rw [hempty, hslots]; omega), hempty, hslots,
    Nat.zero_add]

end SessionMetricsAccumulator

/-! ### Model tables -/

inductive UsageClass where
  | input
  | output
  | cacheRead
  | cacheCreation

def Usage.count (usage : Usage) : UsageClass → Nat
  | .input => usage.inputTokens
  | .output => usage.outputTokens
  | .cacheRead => usage.cacheReadTokens
  | .cacheCreation => usage.cacheCreationTokens

namespace ModelTokens

def count (tokens : ModelTokens) : UsageClass → Nat
  | .input => tokens.inputTokens
  | .output => tokens.outputTokens
  | .cacheRead => tokens.cacheReadTokens
  | .cacheCreation => tokens.cacheCreationTokens

lemma addUsage_count (tokens : ModelTokens) (usage : Usage) (k : UsageClass) :
    (tokens.addUsage usage).count k = saturatingAdd (tokens.count k) (usage.count k) := by
  cases k <;> rfl

lemma addUsage_count_of_le {tokens : ModelTokens} {usage : Usage} {k : UsageClass}
    (h : tokens.count k + usage.count k ≤ U64_MAX) :
    (tokens.addUsage usage).count k = tokens.count k + usage.count k := by
  rw [addUsage_count, saturatingAdd_of_le h]

end ModelTokens

def OnlineTallies.billable (tallies : OnlineTallies) : UsageClass → Nat
  | .input => tallies.billableInputTokens
  | .output => tallies.billableOutputTokens
  | .cacheRead => tallies.billableCacheReadTokens
  | .cacheCreation => tallies.billableCacheCreationTokens

def tableSum {κ : Type} (k : UsageClass) (table : List (κ × ModelTokens)) : Nat :=
  (table.map fun row => row.2.count k).sum

lemma tableSum_addRow {κ : Type} [DecidableEq κ] (k : UsageClass) (key : κ) (usage : Usage)
    (table : List (κ × ModelTokens)) (hfits : tableSum k table + usage.count k ≤ U64_MAX) :
    tableSum k (addRow key usage table) = tableSum k table + usage.count k := by
  have hcons (row : κ × ModelTokens) (rest : List (κ × ModelTokens)) :
      tableSum k (row :: rest) = row.2.count k + tableSum k rest := by
    rw [tableSum, List.map_cons, List.sum_cons, tableSum]
  unfold addRow
  split_ifs with hknown
  · induction table with
    | nil => cases hknown
    | cons row rest ih =>
      obtain ⟨current, tokens⟩ := row
      rw [hcons] at hfits
      rw [addTokens]
      split_ifs with heq
      · rw [hcons, hcons]
        dsimp only at hfits ⊢
        rw [ModelTokens.addUsage_count_of_le (by omega)]
        omega
      · have hrest : (rest.any fun row => row.1 == key) = true := by
          rw [List.any_cons, Bool.or_eq_true] at hknown
          rcases hknown with hfirst | hrest
          · exact absurd (eq_of_beq hfirst) heq
          · exact hrest
        rw [hcons, hcons, ih (by omega) hrest]
        omega
  · have hzero : (newTokens usage).count k = usage.count k := by
      have hempty : ModelTokens.count {} k = 0 := by cases k <;> rfl
      rw [newTokens, ModelTokens.addUsage_count_of_le (by rw [hempty]; omega), hempty, Nat.zero_add]
    rw [tableSum, List.map_append, List.sum_append, ← tableSum]
    simp only [List.map_cons, List.map_nil, List.sum_cons, List.sum_nil, hzero, Nat.add_zero]

def NormalizedEvent.emptyModel (event : NormalizedEvent) : Bool :=
  !(event.accounting && blankModel event.model) &&
    event.model.any fun value => (modelName value).isEmpty

namespace SessionMetricsAccumulator

/-- Tokens of named models, of no model and of unpriced native usage. -/
def attributed (acc : SessionMetricsAccumulator) (k : UsageClass) : Nat :=
  tableSum k acc.modelBreakdown + acc.unattributedModelTokens.count k +
    acc.unpricedNativeTokens.count k

def priced (acc : SessionMetricsAccumulator) (k : UsageClass) : Nat :=
  tableSum k acc.pricingBreakdown + acc.unattributedPricingTokens.1.count k +
    acc.unattributedPricingTokens.2.count k + acc.unpricedNativeTokens.count k

def attributedCount (event : NormalizedEvent) (k : UsageClass) : Nat :=
  if event.emptyModel then 0 else event.usage.count k

lemma UsageCase.sums {acc accumulator' : SessionMetricsAccumulator}
    {event : NormalizedEvent} (h : UsageCase acc event accumulator') (k : UsageClass)
    (hattr : acc.attributed k + event.usage.count k ≤ U64_MAX)
    (hpriced : acc.priced k + event.usage.count k ≤ U64_MAX) :
    accumulator'.attributed k = acc.attributed k + attributedCount event k ∧
      accumulator'.priced k = acc.priced k + attributedCount event k := by
  unfold attributed priced attributedCount NormalizedEvent.emptyModel at *
  cases h with
  | idle hinput houtput hread hcreation =>
    have hzero : event.usage.count k = 0 := by
      cases k
      · exact hinput
      · exact houtput
      · exact hread
      · exact hcreation
    rw [hzero]
    split_ifs <;> exact ⟨rfl, rfl⟩
  | unpriced haccounting =>
    rw [haccounting]
    simp only [Bool.not_true, Bool.false_and, Bool.false_eq_true, if_false]
    rw [ModelTokens.addUsage_count_of_le (by omega)]
    omega
  | excluded haccounting hmodel hempty =>
    rw [haccounting, hmodel]
    simp only [Bool.not_false, Bool.true_and, Option.any_some, hempty, if_true]
    exact ⟨rfl, rfl⟩
  | unattributed fast interner truncated haccounting hmodel =>
    have hnone : (event.model.any fun value => (modelName value).isEmpty) = false := by
      rw [← Bool.not_eq_true, Option.any_eq_true]
      rintro ⟨value, hvalue, hempty⟩
      rw [hmodel value hvalue] at hempty
      cases hempty
    rw [haccounting, hnone]
    simp only [Bool.and_false, Bool.false_eq_true, if_false]
    rw [ModelTokens.addUsage_count_of_le (by omega)]
    refine ⟨by omega, ?_⟩
    split_ifs
    · dsimp only
      rw [ModelTokens.addUsage_count_of_le (by omega)]
      omega
    · dsimp only
      rw [ModelTokens.addUsage_count_of_le (by omega)]
      omega
  | named fast model interner truncated haccounting hmodel hname =>
    rw [haccounting, hmodel]
    simp only [Bool.not_false, Bool.true_and, Option.any_some, hname, Bool.false_eq_true, if_false]
    rw [tableSum_addRow k _ _ _ (by omega), tableSum_addRow k _ _ _ (by omega)]
    omega

end SessionMetricsAccumulator

/-! ### Runs -/

inductive MetricsOp where
  | observe (event : NormalizedEvent)
  | finish

def MetricsOp.events : List MetricsOp → List NormalizedEvent
  | [] => []
  | .observe event :: rest => event :: events rest
  | .finish :: rest => events rest

namespace SessionMetricsAccumulator

def apply (acc : SessionMetricsAccumulator) : MetricsOp → SessionMetricsAccumulator
  | .observe event => acc.observeEvent event
  | .finish => acc.finish

def applyAll (ops : List MetricsOp) : SessionMetricsAccumulator := ops.foldl apply {}

end SessionMetricsAccumulator

/-- The transcripts that a count of the chart is about. -/
def TokenCount.source : TokenCount → EventSource
  | .subagent => .subagent
  | _ => .parent

def NormalizedEvent.tokens (event : NormalizedEvent) : TokenCount → Nat
  | .input => event.usage.inputTokens + event.usage.cacheCreationTokens
  | .output => event.usage.outputTokens
  | .cacheRead => event.usage.cacheReadTokens
  | .cacheWrite => event.usage.cacheCreationTokens
  | .subagent =>
    event.usage.inputTokens + event.usage.cacheCreationTokens + event.usage.outputTokens

def chartTotal (c : TokenCount) (events : List NormalizedEvent) : Nat :=
  ((events.filter fun event => event.source = c.source).map (·.tokens c)).sum

def usageTotal (k : UsageClass) (events : List NormalizedEvent) : Nat :=
  (events.map (·.usage.count k)).sum

def emptyModelTotal (k : UsageClass) (events : List NormalizedEvent) : Nat :=
  usageTotal k (events.filter (·.emptyModel))

section Totals

variable (event : NormalizedEvent) (events : List NormalizedEvent)

lemma chartTotal_cons (c : TokenCount) :
    chartTotal c (event :: events) =
      (if event.source = c.source then event.tokens c else 0) + chartTotal c events := by
  unfold chartTotal
  rw [List.filter_cons]
  by_cases h : event.source = c.source
  · rw [if_pos (decide_eq_true h), if_pos h, List.map_cons, List.sum_cons]
  · rw [if_neg (fun hdecide => h (of_decide_eq_true hdecide)), if_neg h, Nat.zero_add]

lemma usageTotal_cons (k : UsageClass) :
    usageTotal k (event :: events) = event.usage.count k + usageTotal k events := by
  rw [usageTotal, List.map_cons, List.sum_cons, usageTotal]

lemma emptyModelTotal_cons (k : UsageClass) :
    emptyModelTotal k (event :: events) =
      (if event.emptyModel then event.usage.count k else 0) + emptyModelTotal k events := by
  unfold emptyModelTotal
  rw [List.filter_cons]
  split_ifs
  · rw [usageTotal_cons]
  · rw [Nat.zero_add]

lemma eventCount_eq (c : TokenCount)
    (hfits : (if event.source = c.source then event.tokens c else 0) ≤ U64_MAX) :
    SessionMetricsAccumulator.eventCount event c =
      if event.source = c.source then event.tokens c else 0 := by
  unfold SessionMetricsAccumulator.eventCount SessionMetricsAccumulator.openSlot
  cases hsource : event.source with
  | parent =>
    cases c with
    | input =>
      rw [hsource] at hfits
      exact saturatingAdd_of_le hfits
    | output | cacheRead | cacheWrite | subagent => rfl
  | subagent =>
    cases c with
    | input | output | cacheRead | cacheWrite => rfl
    | subagent =>
      rw [hsource] at hfits
      have hfits : event.usage.inputTokens + event.usage.cacheCreationTokens +
          event.usage.outputTokens ≤ U64_MAX := hfits
      have heffective : event.usage.effectiveInputTokens =
          event.usage.inputTokens + event.usage.cacheCreationTokens :=
        saturatingAdd_of_le (by omega)
      show saturatingAdd event.usage.effectiveInputTokens event.usage.outputTokens = _
      rw [heffective, saturatingAdd_of_le hfits]
      rfl

end Totals

structure Counted (accumulator : SessionMetricsAccumulator)
    (chart : TokenCount → Nat) (usage empty : UsageClass → Nat) : Prop where
  held : ∀ c, accumulator.held c = chart c
  attributed : ∀ k, accumulator.attributed k + empty k = usage k
  priced : ∀ k, accumulator.priced k + empty k = usage k
  billable : ∀ k, accumulator.tallies.billable k = usage k

section Runs

variable {acc : SessionMetricsAccumulator} {chart : TokenCount → Nat}
  {usage empty : UsageClass → Nat}

lemma foldReadySlot_frame (acc : SessionMetricsAccumulator) (ready : SlotAggregate) :
    (acc.foldReadySlot ready).attributed = acc.attributed ∧
      (acc.foldReadySlot ready).priced = acc.priced ∧
      (acc.foldReadySlot ready).tallies = acc.tallies := by
  unfold SessionMetricsAccumulator.foldReadySlot SessionMetricsAccumulator.advanceActivePosition
  dsimp only
  split_ifs <;> exact ⟨rfl, rfl, rfl⟩

lemma pushSlot_frame (acc : SessionMetricsAccumulator) (slot : SlotAggregate) :
    (acc.pushSlot slot).attributed = acc.attributed ∧
      (acc.pushSlot slot).priced = acc.priced ∧
      (acc.pushSlot slot).tallies = acc.tallies := by
  unfold SessionMetricsAccumulator.pushSlot
  dsimp only
  split
  · exact ⟨rfl, rfl, rfl⟩
  · exact foldReadySlot_frame _ _

lemma finish_frame (acc : SessionMetricsAccumulator) :
    acc.finish.attributed = acc.attributed ∧
      acc.finish.priced = acc.priced ∧
      acc.finish.tallies = acc.tallies := by
  have hfold (slots : List SlotAggregate) (acc : SessionMetricsAccumulator) :
      (slots.foldl SessionMetricsAccumulator.foldReadySlot acc).attributed =
          acc.attributed ∧
        (slots.foldl SessionMetricsAccumulator.foldReadySlot acc).priced =
          acc.priced ∧
        (slots.foldl SessionMetricsAccumulator.foldReadySlot acc).tallies =
          acc.tallies := by
    induction slots generalizing acc with
    | nil => exact ⟨rfl, rfl, rfl⟩
    | cons slot rest ih =>
      obtain ⟨hattr, hpriced, htallies⟩ := foldReadySlot_frame acc slot
      obtain ⟨hattr', hpriced', htallies'⟩ := ih (acc.foldReadySlot slot)
      exact ⟨hattr'.trans hattr, hpriced'.trans hpriced, htallies'.trans htallies⟩
  exact hfold _ _

lemma Counted.finish (h : Counted acc chart usage empty)
    (hchart : ∀ c, chart c ≤ U64_MAX) : Counted acc.finish chart usage empty := by
  obtain ⟨hattr, hpriced, htallies⟩ := finish_frame acc
  refine ⟨fun c => ?_, fun k => ?_, fun k => ?_, fun k => ?_⟩
  · rw [acc.finish_held c (by rw [h.held]; exact hchart c), h.held]
  · rw [hattr]
    exact h.attributed k
  · rw [hpriced]
    exact h.priced k
  · rw [htallies]
    exact h.billable k

lemma observe_billable (tallies : OnlineTallies) (event : NormalizedEvent) (k : UsageClass)
    (hfits : tallies.billable k + event.usage.count k ≤ U64_MAX) :
    (tallies.observe event).billable k = tallies.billable k + event.usage.count k := by
  cases k <;> exact saturatingAdd_of_le hfits

/-- **Step.**  An event adds its tokens once to every figure. -/
lemma Counted.event (h : Counted acc chart usage empty) (event : NormalizedEvent)
    (hchart : ∀ c, chart c + (if event.source = c.source then event.tokens c else 0) ≤ U64_MAX)
    (husage : ∀ k, usage k + event.usage.count k ≤ U64_MAX) :
    Counted (acc.observeEvent event)
      (fun c => chart c + if event.source = c.source then event.tokens c else 0)
      (fun k => usage k + event.usage.count k)
      (fun k => empty k + if event.emptyModel then event.usage.count k else 0) := by
  have htables : ∃ accumulator' : SessionMetricsAccumulator, (∀ k, accumulator'.attributed k =
        acc.attributed k + SessionMetricsAccumulator.attributedCount event k) ∧
      (∀ k, accumulator'.priced k =
        acc.priced k + SessionMetricsAccumulator.attributedCount event k) ∧
      accumulator'.tallies = acc.tallies.observe event ∧
      (acc.observeEvent event).attributed = accumulator'.attributed ∧
      (acc.observeEvent event).priced = accumulator'.priced ∧
      (acc.observeEvent event).tallies = accumulator'.tallies := by
    unfold SessionMetricsAccumulator.observeEvent
    dsimp only
    generalize hstart : ({ acc with
        observedTurns := saturatingAdd acc.observedTurns 1
        tallies := acc.tallies.observe event
        active :=
          let active := (event.tsMs.map acc.active.observe).getD acc.active
          (event.usageTsMs.map active.observe).getD active
        lastEffectiveTs := event.tsMs.getD acc.lastEffectiveTs } :
          SessionMetricsAccumulator) = start
    have hattr : start.attributed = acc.attributed := by rw [← hstart]; rfl
    have hpriced : start.priced = acc.priced := by rw [← hstart]; rfl
    have htallies : start.tallies = acc.tallies.observe event := by rw [← hstart]
    have hcase := start.observeModelUsage_cases event
    have hframe := (start.observeModelUsage_frame event).2.2
    generalize start.observeModelUsage event = observed at hcase hframe ⊢
    obtain ⟨priced, accumulator'⟩ := observed
    dsimp only at hcase hframe ⊢
    have hsums (k : UsageClass) := hcase.sums k
      (by rw [hattr]; have := h.attributed k; have := husage k; omega)
      (by rw [hpriced]; have := h.priced k; have := husage k; omega)
    refine ⟨accumulator', fun k => ?_, fun k => ?_, hframe.trans htallies, ?_⟩
    · rw [(hsums k).1, hattr]
    · rw [(hsums k).2, hpriced]
    · split_ifs
      · obtain ⟨h₁, h₂, h₃⟩ := pushSlot_frame accumulator' (SessionMetricsAccumulator.usageSlot
          { SessionMetricsAccumulator.openSlot event acc.observedTurns
              (event.tsMs.getD (event.tsMs.getD acc.lastEffectiveTs)) with
            priced := priced.toList.map (SessionMetricsAccumulator.pricedTokens event.usage) }
          acc.observedTurns (event.usageTsMs.getD
            (event.tsMs.getD (event.tsMs.getD acc.lastEffectiveTs))))
        obtain ⟨h₁', h₂', h₃'⟩ := pushSlot_frame (accumulator'.pushSlot _) _
        exact ⟨h₁'.trans h₁, h₂'.trans h₂, h₃'.trans h₃⟩
      · exact pushSlot_frame accumulator' _
  obtain ⟨accumulator', hattr, hpriced, htallies, hattr', hpriced', htallies'⟩ := htables
  refine ⟨fun c => ?_, fun k => ?_, fun k => ?_, fun k => ?_⟩
  · have hcount := eventCount_eq event c (Nat.le_trans (Nat.le_add_left _ _) (hchart c))
    rw [acc.observeEvent_held event c (by rw [hcount, h.held]; exact hchart c), hcount,
      h.held]
  · rw [hattr', hattr, ← h.attributed k]
    unfold SessionMetricsAccumulator.attributedCount
    split_ifs <;> omega
  · rw [hpriced', hpriced, ← h.priced k]
    unfold SessionMetricsAccumulator.attributedCount
    split_ifs <;> omega
  · rw [htallies', htallies, observe_billable _ _ _ (by rw [h.billable]; exact husage k),
      h.billable]

lemma Counted.run (h : Counted acc chart usage empty) (ops : List MetricsOp)
    (hchart : ∀ c, chart c + chartTotal c (MetricsOp.events ops) ≤ U64_MAX)
    (husage : ∀ k, usage k + usageTotal k (MetricsOp.events ops) ≤ U64_MAX) :
    Counted (ops.foldl SessionMetricsAccumulator.apply acc)
      (fun c => chart c + chartTotal c (MetricsOp.events ops))
      (fun k => usage k + usageTotal k (MetricsOp.events ops))
      (fun k => empty k + emptyModelTotal k (MetricsOp.events ops)) := by
  induction ops generalizing acc chart usage empty with
  | nil => exact h
  | cons op rest ih =>
    cases op with
    | finish =>
      refine ih (h.finish fun c => ?_) hchart husage
      exact Nat.le_trans (Nat.le_add_right _ _) (hchart c)
    | observe event =>
      have hevents : MetricsOp.events (.observe event :: rest) = event :: MetricsOp.events rest := rfl
      rw [hevents] at hchart husage ⊢
      simp only [chartTotal_cons, usageTotal_cons, emptyModelTotal_cons, ← Nat.add_assoc]
        at hchart husage ⊢
      refine ih (h.event event (fun c => ?_) fun k => ?_) hchart husage
      · exact Nat.le_trans (Nat.le_add_right _ _) (hchart c)
      · exact Nat.le_trans (Nat.le_add_right _ _) (husage k)

end Runs

/-- **Conservation.**  At every moment of a session whose totals fit, the chart adds up to
the events, and the tables add up to the billable totals, apart from the events whose
model name is empty. -/
theorem tokens_conserved (scale : Int → Int → Nat) (ops : List MetricsOp)
    (hchart : ∀ c, chartTotal c (MetricsOp.events ops) ≤ U64_MAX)
    (husage : ∀ k, usageTotal k (MetricsOp.events ops) ≤ U64_MAX) :
    (∀ c, bucketSum c ((SessionMetricsAccumulator.applyAll ops).buckets scale) =
        chartTotal c (MetricsOp.events ops)) ∧
      (∀ k, (SessionMetricsAccumulator.applyAll ops).attributed k +
        emptyModelTotal k (MetricsOp.events ops) =
          (SessionMetricsAccumulator.applyAll ops).tallies.billable k) ∧
      (∀ k, (SessionMetricsAccumulator.applyAll ops).priced k +
        emptyModelTotal k (MetricsOp.events ops) =
          (SessionMetricsAccumulator.applyAll ops).tallies.billable k) ∧
      ∀ k, (SessionMetricsAccumulator.applyAll ops).tallies.billable k =
        usageTotal k (MetricsOp.events ops) := by
  have hstart : Counted {} (fun _ => 0) (fun _ => 0) fun _ => 0 :=
    ⟨fun c => rfl, fun k => by cases k <;> rfl, fun k => by cases k <;> rfl,
      fun k => by cases k <;> rfl⟩
  have hrun := hstart.run ops (fun c => by rw [Nat.zero_add]; exact hchart c)
    fun k => by rw [Nat.zero_add]; exact husage k
  simp only [Nat.zero_add] at hrun
  refine ⟨fun c => ?_, fun k => ?_, fun k => ?_, hrun.billable⟩
  · refine (SessionMetricsAccumulator.bucketSum_buckets _ scale c ?_).trans (hrun.held c)
    exact (hrun.held c).trans_le (hchart c)
  · exact (hrun.attributed k).trans (hrun.billable k).symm
  · exact (hrun.priced k).trans (hrun.billable k).symm

/-- A turn whose usage has a time of its own, before and after the session ends. -/
theorem tokens_conserved_splitUsage :
    let event : NormalizedEvent :=
      { tsMs := some 1000
        usageTsMs := some 400
        source := .parent
        usage := { inputTokens := 5, outputTokens := 7 }
        accounting := false
        model := some "m"
        speed := none }
    bucketSum .output ((SessionMetricsAccumulator.applyAll [.observe event, .finish]).buckets
      fun _ _ => 0) = 7 := by
  intro event
  have htotals : (∀ c, chartTotal c [event] ≤ U64_MAX) ∧ ∀ k, usageTotal k [event] ≤ U64_MAX := by
    refine ⟨fun c => ?_, fun k => ?_⟩
    · cases c <;> decide
    · cases k <;> decide
  exact (tokens_conserved (fun _ _ => 0) [.observe event, .finish] htotals.1 htotals.2).1 .output

end Antiburn
