/-
The streaming reducer and the two-pass definition.

`ScanFollows` says that the first pass of the definition has seen the turns that the
reducer saw, with the summary's model filled in.
-/
import Antiburn.CacheMissTurns

namespace Antiburn

section Agreement

variable {κ : Type} [DecidableEq κ]

/-! ### The definition -/

/-- What the first pass of the definition has seen when the reducer saw the same events. -/
structure ScanFollows (agent : String) (turns : List (CacheTurn κ × Nat)) (run : CacheRun κ)
    (summaryModel : Option κ) (scan : MissScan κ) : Prop where
  activeModel : scan.activeModel = run.activeModel.or summaryModel
  eventIndex : scan.eventIndex = run.observedTurns
  first : scan.firstTurnAfterCompaction = run.reducer.firstTurnAfterCompaction
  previousTurnTs : scan.previousTurnTs = run.reducer.previousTurnTs
  pendingUserPrompt : scan.pendingUserPrompt = run.reducer.pendingUserPrompt
  pendingUserPromptTs : scan.pendingUserPromptTs = run.reducer.pendingUserPromptTs
  explicit : scan.hasExplicitCacheWrites = run.reducer.hasExplicitCacheWrites
  cacheTurns : scan.cacheTurns = turns.map fun turn => turn.1.known summaryModel
  events : scan.events = directEvents (rehydrationMinUserInactivitySecs agent)
    (turns.map fun turn => (turn.1.known summaryModel, turn.2))

structure Named (turns : List (CacheTurn κ × Nat)) (run : CacheRun κ) : Prop where
  sticky : (turns.map Prod.fst).Pairwise fun turn later =>
    turn.model.isSome = true → later.model.isSome = true
  active : ∀ turn ∈ turns.map Prod.fst,
    turn.model.isSome = true → run.activeModel.isSome = true

def cacheWrites (event : CacheEvent κ) : Option Nat :=
  match event with
  | .turn _ contextTokens _ cacheWriteTokens _ =>
    if contextTokens > 0 then some cacheWriteTokens else none
  | _ => none

omit [DecidableEq κ] in
lemma Named.snoc {turns : List (CacheTurn κ × Nat)} {run : CacheRun κ} (h : Named turns run)
    {turn : CacheTurn κ} {writes : Nat} {model : Option κ} {next : CacheRun κ}
    (hturn : turn.model = model.or run.activeModel)
    (hactive : next.activeModel = model.or run.activeModel) :
    Named (turns ++ [(turn, writes)]) next := by
  have hkeeps : ∀ before ∈ turns.map Prod.fst, before.model.isSome = true →
      (model.or run.activeModel).isSome = true := by
    intro before hbefore hsome
    rw [Option.isSome_or, h.active before hbefore hsome, Bool.or_true]
  refine ⟨?_, ?_⟩
  · rw [List.map_append, List.pairwise_append]
    refine ⟨h.sticky, List.pairwise_singleton _ _, ?_⟩
    intro before hbefore later hlater hsome
    rw [List.map_singleton, List.mem_singleton] at hlater
    rw [hlater, hturn]
    exact hkeeps before hbefore hsome
  · intro before hbefore hsome
    rw [List.map_append, List.mem_append, List.map_singleton, List.mem_singleton] at hbefore
    rw [hactive]
    rcases hbefore with hbefore | rfl
    · exact hkeeps before hbefore hsome
    · rwa [hturn] at hsome

/-- The state of both after the same events. -/
structure InStep (agent : String) (turns : List (CacheTurn κ × Nat)) (run : CacheRun κ)
    (scans : Option κ → MissScan κ) : Prop where
  tracks : Tracks agent turns run
  named : Named turns run
  follows : ∀ summaryModel, ScanFollows agent turns run summaryModel (scans summaryModel)

variable {agent : String}

section

variable {turns : List (CacheTurn κ × Nat)} {run : CacheRun κ} {scans : Option κ → MissScan κ}
  (h : InStep agent turns run scans)
include h

lemma InStep.turn (timestamp : Option Int)
    {contextTokens : Nat} (cacheReadTokens cacheWriteTokens : Nat) (model : Option κ)
    (hctx : contextTokens > 0) :
    let event := CacheEvent.turn timestamp contextTokens cacheReadTokens cacheWriteTokens model
    ∃ turn, InStep agent (turns ++ [(turn, cacheWriteTokens)]) (run.step event)
      fun summaryModel => MissScan.step (rehydrationMinUserInactivitySecs agent)
        (scans summaryModel) event := by
  intro event
  set input : CacheInput κ := {
    ordinal := run.observedTurns
    timestamp
    contextTokens
    cacheReadTokens
    cacheWriteTokens
    model := model.or run.activeModel } with hinput
  have hrun : run.step event =
      { reducer := (run.reducer.observe input).2
        activeModel := model.or run.activeModel
        observedTurns := run.observedTurns + 1
        mode1Slots := run.mode1Slots ++ [(run.reducer.observe input).1.1]
        mode2Patches := run.mode2Patches ++ (run.reducer.observe input).1.2.1.toList } := by
    unfold CacheRun.step
    exact if_pos hctx
  refine ⟨run.reducer.turnOf input, ?_, ?_, ?_⟩
  · rw [hrun]
    exact h.tracks.observe input _
  · rw [hrun]
    exact h.named.snoc rfl rfl
  · intro summaryModel
    obtain ⟨hactive, hindex, hfirst, hprev, hpend, hpendingTs, hexplicit, hturns, hevents⟩ :=
      h.follows summaryModel
    rw [hrun]
    unfold MissScan.step
    dsimp only [event]
    rw [if_neg (by omega)]
    have hknown : ({
        ordinal := (scans summaryModel).eventIndex + 1 - 1
        contextTokens
        cacheReadTokens
        firstTurnAfterCompaction := (scans summaryModel).firstTurnAfterCompaction
        secsSincePriorTurn := none
        userInactiveSecs :=
          if (scans summaryModel).pendingUserPrompt then
            secsBetween (scans summaryModel).previousTurnTs (scans summaryModel).pendingUserPromptTs
          else none
        model := model.or (scans summaryModel).activeModel } : CacheTurn κ) =
          (run.reducer.turnOf input).known summaryModel := by
      rw [hindex, hfirst, hpend, hprev, hpendingTs, hactive, ← Option.or_assoc]
      rfl
    rw [hknown]
    obtain ⟨_, _, _, hframe⟩ := observe_frame run.reducer input
    rw [hframe]
    refine ⟨?_, ?_, rfl, rfl, rfl, rfl, ?_, ?_, ?_⟩
    · show model.or _ = (model.or run.activeModel).or summaryModel
      rw [hactive, Option.or_assoc]
    · exact congrArg (· + 1) hindex
    · exact congrArg (· || decide (cacheWriteTokens > 0)) hexplicit
    · dsimp only
      rw [hturns, List.map_append]
      rfl
    · rw [List.map_append, List.map_singleton, directEvents_snoc, ← hevents, List.getLast?_map]
      dsimp only
      rw [hturns, List.getLast?_map]
      cases turns.getLast? with
      | none => exact (List.append_nil _).symm
      | some prev =>
        dsimp only [Option.map_some]
        split
        · rfl
        · exact (List.append_nil _).symm

lemma InStep.step (event : CacheEvent κ) :
    ∃ more, more.map Prod.snd = (cacheWrites event).toList ∧
      InStep agent (turns ++ more) (run.step event)
        fun summaryModel => MissScan.step (rehydrationMinUserInactivitySecs agent)
          (scans summaryModel) event := by
  cases event with
  | userPrompt timestamp =>
    refine ⟨[], rfl, ?_⟩
    rw [List.append_nil]
    refine ⟨{ h.tracks with }, { h.named with }, fun summaryModel => ?_⟩
    obtain ⟨hactive, hindex, hfirst, hprev, hpend, hpendingTs, hexplicit, hturns, hevents⟩ :=
      h.follows summaryModel
    exact ⟨hactive, congrArg (· + 1) hindex, hfirst, hprev, rfl,
      congrArg (·.or timestamp) hpendingTs, hexplicit, hturns, hevents⟩
  | compactionBoundary =>
    refine ⟨[], rfl, ?_⟩
    rw [List.append_nil]
    refine ⟨{ h.tracks with }, { h.named with }, fun summaryModel => ?_⟩
    obtain ⟨hactive, hindex, hfirst, hprev, hpend, hpendingTs, hexplicit, hturns, hevents⟩ :=
      h.follows summaryModel
    exact ⟨hactive, congrArg (· + 1) hindex, rfl, hprev, hpend, hpendingTs, hexplicit,
      hturns, hevents⟩
  | turn timestamp contextTokens cacheReadTokens cacheWriteTokens model =>
    by_cases hctx : contextTokens > 0
    · obtain ⟨turn, hstep⟩ := h.turn timestamp cacheReadTokens cacheWriteTokens model hctx
      exact ⟨[(turn, cacheWriteTokens)], by simp [cacheWrites, hctx], hstep⟩
    · -- a turn without context only names its model
      have hrun : run.step (.turn timestamp contextTokens cacheReadTokens cacheWriteTokens model) =
          { run with
            observedTurns := run.observedTurns + 1
            activeModel := model.or run.activeModel } := if_neg hctx
      refine ⟨[], by simp [cacheWrites, hctx], ?_⟩
      rw [List.append_nil, hrun]
      refine ⟨{ h.tracks with }, ⟨h.named.sticky, ?_⟩, fun summaryModel => ?_⟩
      · intro turn hturn hsome
        rw [Option.isSome_or, h.named.active turn hturn hsome, Bool.or_true]
      obtain ⟨hactive, hindex, hfirst, hprev, hpend, hpendingTs, hexplicit, hturns,
        hevents⟩ := h.follows summaryModel
      unfold MissScan.step
      dsimp only
      rw [if_pos (by omega)]
      refine ⟨?_, congrArg (· + 1) hindex, hfirst, hprev, hpend, hpendingTs, hexplicit,
        hturns, hevents⟩
      dsimp only
      rw [hactive, Option.or_assoc]

end

lemma inStep_ofEvents (agent : String) (events : List (CacheEvent κ)) :
    ∃ turns : List (CacheTurn κ × Nat), turns.map Prod.snd = events.filterMap cacheWrites ∧
      InStep agent turns (.ofEvents agent events) fun summaryModel =>
        events.foldl (MissScan.step (rehydrationMinUserInactivitySecs agent))
          { activeModel := summaryModel } := by
  induction events using List.reverseRecOn with
  | nil =>
    refine ⟨[], rfl, ?_, ⟨List.Pairwise.nil, by simp⟩, fun summaryModel => ?_⟩
    · exact ⟨rfl, rfl, rfl, rfl, rfl, rfl, rfl, rfl⟩
    · exact ⟨rfl, rfl, rfl, rfl, rfl, rfl, rfl, rfl, rfl⟩
  | append_singleton events event ih =>
    obtain ⟨turns, hwrites, hstep⟩ := ih
    obtain ⟨more, hmore, hnext⟩ := hstep.step event
    refine ⟨turns ++ more, ?_, ?_⟩
    · rw [List.map_append, hwrites, hmore, List.filterMap_append]
      cases hwrite : cacheWrites event <;> simp [hwrite]
    · unfold CacheRun.ofEvents
      simp only [List.foldl_append, List.foldl_cons, List.foldl_nil]
      exact hnext

/-! ### Mode 1 -/

lemma isMaterialCacheEvent_known (summaryModel : Option κ) (prev current : CacheTurn κ) :
    isMaterialCacheEvent (prev.known summaryModel) (current.known summaryModel) =
      (isMaterialCacheEvent prev current &&
        sameKnownModel (prev.model.or summaryModel) (current.model.or summaryModel)) := by
  have hless : sameKnownModel (prev.model.or summaryModel) (current.model.or summaryModel) =
      true → sameKnownModel prev.model current.model = true := by
    cases prev.model <;> cases current.model <;> simp [sameKnownModel]
  unfold isMaterialCacheEvent
  show (if _ || _ || _ || !sameKnownModel (prev.model.or summaryModel)
    (current.model.or summaryModel) then _ else _) = _
  cases hknown : sameKnownModel (prev.model.or summaryModel) (current.model.or summaryModel) with
  | false => simp
  | true =>
    rw [hless hknown, Bool.and_true]
    rfl

def isLatePair (summaryModel : Option κ) (pair : (CacheTurn κ × Nat) × (CacheTurn κ × Nat)) : Prop :=
  isDirectPair pair = true ∧ pair.1.1.model = none ∧
    ∃ named summary, pair.2.1.model = some named ∧ summaryModel = some summary ∧ named ≠ summary

lemma isDirectPair_known (summaryModel : Option κ)
    (pair : (CacheTurn κ × Nat) × (CacheTurn κ × Nat)) :
    isDirectPair ((pair.1.1.known summaryModel, pair.1.2), (pair.2.1.known summaryModel, pair.2.2)) =
      (isDirectPair pair &&
        sameKnownModel (pair.1.1.model.or summaryModel) (pair.2.1.model.or summaryModel)) := by
  unfold isDirectPair isDirectCacheEvent
  rw [isMaterialCacheEvent_known, Bool.and_assoc]

lemma sameKnownModel_of_isDirectPair {pair : (CacheTurn κ × Nat) × (CacheTurn κ × Nat)}
    (h : isDirectPair pair = true) :
    sameKnownModel pair.1.1.model pair.2.1.model = true := by
  unfold isDirectPair isDirectCacheEvent isMaterialCacheEvent at h
  rw [← Bool.not_eq_false]
  intro hsame
  rw [hsame] at h
  simp at h

lemma isDirectPair_known_iff {summaryModel : Option κ}
    {pair : (CacheTurn κ × Nat) × (CacheTurn κ × Nat)} (hdirect : isDirectPair pair = true)
    (hsticky : pair.1.1.model.isSome = true → pair.2.1.model.isSome = true) :
    isDirectPair ((pair.1.1.known summaryModel, pair.1.2), (pair.2.1.known summaryModel, pair.2.2))
      = true ↔ ¬isLatePair summaryModel pair := by
  have hsame := sameKnownModel_of_isDirectPair hdirect
  rw [isDirectPair_known, hdirect, Bool.true_and]
  unfold isLatePair
  rw [hdirect]
  cases hprev : pair.1.1.model with
  | none =>
    cases hcur : pair.2.1.model with
    | none => cases summaryModel <;> simp [sameKnownModel]
    | some named =>
      cases summaryModel with
      | none => simp [sameKnownModel]
      | some summary => simp [sameKnownModel, eq_comm]
  | some before =>
    cases hcur : pair.2.1.model with
    | none =>
      rw [hprev, hcur] at hsticky
      exact absurd (hsticky rfl) Bool.false_ne_true
    | some named =>
      rw [hprev, hcur] at hsame
      simpa [sameKnownModel] using hsame

omit [DecidableEq κ] in
lemma neighbours_of_pairwise {α : Type} {r : α → α → Prop} {items : List α}
    (h : items.Pairwise r) : ∀ pair ∈ neighbours items, r pair.1 pair.2 := by
  induction items with
  | nil => simp [neighbours]
  | cons a rest ih =>
    cases rest with
    | nil => simp [neighbours]
    | cons b rest =>
      intro pair hpair
      rcases List.mem_cons.mp hpair with rfl | hpair
      · exact List.rel_of_pairwise_cons h List.mem_cons_self
      · exact ih h.of_cons pair hpair

omit [DecidableEq κ] in
lemma mem_of_mem_neighbours {α : Type} {items : List α} {pair : α × α}
    (h : pair ∈ neighbours items) : pair.2 ∈ items := by
  induction items with
  | nil => simp [neighbours] at h
  | cons a rest ih =>
    cases rest with
    | nil => simp [neighbours] at h
    | cons b rest =>
      rcases List.mem_cons.mp h with rfl | h
      · exact List.mem_cons_of_mem _ List.mem_cons_self
      · exact List.mem_cons_of_mem _ (ih h)

lemma directEvents_known (minimum : Option Nat) (summaryModel : Option κ)
    (turns : List (CacheTurn κ × Nat)) :
    directEvents minimum (turns.map fun turn => (turn.1.known summaryModel, turn.2)) =
      ((neighbours turns).filter fun pair => isDirectPair
        ((pair.1.1.known summaryModel, pair.1.2), (pair.2.1.known summaryModel, pair.2.2))).map
          fun pair => missEvent minimum pair.1.1.contextTokens pair.2.1 := by
  unfold directEvents
  rw [neighbours_map, List.filter_map, List.map_map]
  rfl

lemma directEvents_perm_iff (minimum : Option Nat) (summaryModel : Option κ)
    {turns : List (CacheTurn κ × Nat)} {run : CacheRun κ} (hnamed : Named turns run) :
    (directEvents minimum turns).Perm
        (directEvents minimum (turns.map fun turn => (turn.1.known summaryModel, turn.2))) ↔
      ∀ pair ∈ neighbours turns, ¬isLatePair summaryModel pair := by
  rw [directEvents_known]
  unfold directEvents
  rw [filter_perm_filter_iff]
  · have hsticky : ∀ pair ∈ neighbours turns,
        pair.1.1.model.isSome = true → pair.2.1.model.isSome = true :=
      neighbours_of_pairwise (List.pairwise_map.mp hnamed.sticky)
    refine forall₂_congr fun pair hpair => ⟨fun h hlate => ?_, fun h hdirect => ?_⟩
    · exact (isDirectPair_known_iff hlate.1 (hsticky pair hpair)).mp (h hlate.1) hlate
    · exact (isDirectPair_known_iff hdirect (hsticky pair hpair)).mpr h
  · intro pair _ hknown
    rw [isDirectPair_known, Bool.and_eq_true] at hknown
    exact hknown.1

/-! ### Mode 2 -/

def CacheWindow.ofOneModel (summaryModel : Option κ) (window : CacheWindow κ) : Bool :=
  modelsMatch window.1.model window.2.1.model window.2.2.model summaryModel

lemma CacheWindow.counts_eq (summaryModel : Option κ) (window : CacheWindow κ) :
    window.counts = (window.isCandidate && !window.isMixed && window.ofOneModel summaryModel) := by
  unfold CacheWindow.counts CacheWindow.isMixed CacheWindow.ofOneModel modelsMatch
  cases window.1.model <;> cases window.2.1.model <;> cases window.2.2.model <;>
    cases summaryModel <;> simp [sameKnownModel]

lemma CacheWindow.inferred_known (summaryModel : Option κ) (window : CacheWindow κ) :
    (inferredCacheRehydrationTurn (window.1.known summaryModel) (window.2.1.known summaryModel) &&
        recovers (window.2.1.known summaryModel) (window.2.2.known summaryModel) &&
          sameKnownModel (window.2.1.known summaryModel).model
            (window.2.2.known summaryModel).model) =
      (window.isCandidate && window.ofOneModel summaryModel) := by
  unfold inferredCacheRehydrationTurn
  rw [isMaterialCacheEvent_known]
  show (_ && sameKnownModel _ _ && recovers window.2.1 window.2.2 && sameKnownModel _ _) =
    (isMaterialCacheEvent window.1 window.2.1 && recovers window.2.1 window.2.2 &&
      (sameKnownModel _ _ && sameKnownModel _ _))
  cases isMaterialCacheEvent window.1 window.2.1 <;>
    cases recovers window.2.1 window.2.2 <;> simp [CacheTurn.known]

lemma windows_perm (minimum : Option Nat) (summaryModel : Option κ) (turns : List (CacheTurn κ)) :
    (promptEvents minimum turns ++
        (((windows3 turns).filter CacheWindow.waits).filter
          (CacheWindow.ofOneModel summaryModel)).map (CacheWindow.event minimum)).Perm
      (((windows3 (turns.map fun turn => turn.known summaryModel)).filter
        fun (prev, current, next) => inferredCacheRehydrationTurn prev current &&
          recovers current next && sameKnownModel current.model next.model).map
            fun (prev, current, _) => missEvent minimum prev.contextTokens current) := by
  rw [windows3_map, List.filter_map, List.map_map]
  have hrefn : ((windows3 turns).filter ((fun (prev, current, next) =>
      inferredCacheRehydrationTurn prev current && recovers current next &&
        sameKnownModel current.model next.model) ∘ fun window : CacheWindow κ =>
          (window.1.known summaryModel, window.2.1.known summaryModel,
            window.2.2.known summaryModel))) =
      (windows3 turns).filter fun window : CacheWindow κ => CacheWindow.counts window ||
        (CacheWindow.waits window && CacheWindow.ofOneModel summaryModel window) := by
    refine List.filter_congr fun window _ => ?_
    refine (CacheWindow.inferred_known summaryModel window).trans ?_
    rw [CacheWindow.counts_eq summaryModel]
    unfold CacheWindow.waits
    cases CacheWindow.isCandidate window <;> cases CacheWindow.isMixed window <;> simp
  rw [hrefn, List.filter_filter]
  unfold promptEvents
  rw [← List.map_append]
  have hperm := @filter_or_perm (CacheWindow κ) CacheWindow.counts
    (fun window => CacheWindow.waits window && CacheWindow.ofOneModel summaryModel window)
    (windows3 turns) ?_
  · refine List.Perm.trans ?_ (hperm.map _)
    simp only [Bool.and_comm]
    exact .refl _
  · intro window _ hcounts
    unfold CacheWindow.counts at hcounts
    unfold CacheWindow.waits
    cases hmixed : window.isMixed with
    | false => simp
    | true => simp [hmixed] at hcounts

def CacheWindow.slot (minimum : Option Nat) (window : CacheWindow κ) : CacheSlot :=
  classify (rehydrationMark window.1.contextTokens window.2.1) window.2.1.secsSincePriorTurn minimum

lemma resolveCandidate_deferred (summaryModel : Option κ) (window : CacheWindow κ)
    (patches : List CachePatch) (reducer : CacheReducer κ) :
    CacheReducer.resolveCandidate summaryModel (patches, reducer) window.deferred =
      if window.ofOneModel summaryModel then
        let slot := window.slot reducer.rehydrationMinUserInactivitySecs
        (patches ++ [⟨window.2.1.ordinal, slot⟩],
          { reducer with mode2 := countSlot reducer.mode2 slot })
      else (patches, reducer) := rfl

lemma resolveDeferred_spec {minimum : Option Nat} (summaryModel : Option κ)
    (windows : List (CacheWindow κ)) (patches : List CachePatch) (reducer : CacheReducer κ)
    (events : List MissEvent) (hmin : reducer.rehydrationMinUserInactivitySecs = minimum)
    (hcounts : reducer.mode2 = missCounts events) :
    let resolved := (windows.map CacheWindow.deferred).foldl
      (CacheReducer.resolveCandidate summaryModel) (patches, reducer)
    let more := (windows.filter (CacheWindow.ofOneModel summaryModel)).map
      (CacheWindow.event minimum)
    (resolved.1.flatMap fun patch => patch.slot.missEvents) =
        (patches.flatMap fun patch => patch.slot.missEvents) ++ more ∧
      resolved.2.mode2 = missCounts (events ++ more) := by
  induction windows generalizing patches reducer events with
  | nil => exact ⟨(List.append_nil _).symm, by simpa using hcounts⟩
  | cons window windows ih =>
    rw [List.map_cons, List.foldl_cons, List.filter_cons, resolveCandidate_deferred]
    cases CacheWindow.ofOneModel summaryModel window with
    | false => exact ih patches reducer events hmin hcounts
    | true =>
      have hslot : countSlot reducer.mode2 (window.slot reducer.rehydrationMinUserInactivitySecs) =
          missCounts (events ++ [window.event minimum]) := by
        rw [hcounts, hmin]
        exact countSlot_classify _ _ _ _
      obtain ⟨hpatch, hmode2⟩ := ih
        (patches ++ [⟨window.2.1.ordinal, window.slot reducer.rehydrationMinUserInactivitySecs⟩])
        { reducer with
          mode2 := countSlot reducer.mode2
            (window.slot reducer.rehydrationMinUserInactivitySecs) }
        (events ++ [window.event minimum]) hmin hslot
      refine ⟨hpatch.trans ?_, hmode2.trans ?_⟩
      · rw [List.flatMap_append, hmin, List.append_assoc]
        rfl
      · rw [List.append_assoc]
        rfl

omit [DecidableEq κ] in
lemma mem_windows3 {α : Type} {items : List α} {window : α × α × α}
    (h : window ∈ windows3 items) :
    window.1 ∈ items ∧ window.2.1 ∈ items ∧ window.2.2 ∈ items := by
  induction items with
  | nil => simp [windows3] at h
  | cons a rest ih =>
    match rest with
    | [] => simp [windows3] at h
    | [_] => simp [windows3] at h
    | b :: c :: rest =>
      rcases List.mem_cons.mp h with rfl | h
      · simp
      · obtain ⟨hfirst, hsecond, hthird⟩ := ih h
        exact ⟨List.mem_cons_of_mem _ hfirst, List.mem_cons_of_mem _ hsecond,
          List.mem_cons_of_mem _ hthird⟩

omit [DecidableEq κ] in
lemma countP_isMixed_named {turn : CacheTurn κ} {turns : List (CacheTurn κ)}
    (h : (turn :: turns).Pairwise fun turn later =>
      turn.model.isSome = true → later.model.isSome = true)
    (hturn : turn.model.isSome = true) :
    (windows3 (turn :: turns)).countP CacheWindow.isMixed = 0 := by
  have hall : ∀ later ∈ turn :: turns, later.model.isSome = true := by
    intro later hlater
    rcases List.mem_cons.mp hlater with rfl | hlater
    · exact hturn
    · exact List.rel_of_pairwise_cons h hlater hturn
  rw [List.countP_eq_zero]
  intro window hwindow
  obtain ⟨hfirst, hsecond, hthird⟩ := mem_windows3 hwindow
  unfold CacheWindow.isMixed
  simp [Option.isNone_eq_false_iff.mpr (hall _ hfirst),
    Option.isNone_eq_false_iff.mpr (hall _ hsecond),
    Option.isNone_eq_false_iff.mpr (hall _ hthird)]

omit [DecidableEq κ] in
/-- Between unnamed and named turns there are two windows at most. -/
lemma countP_isMixed_le {turns : List (CacheTurn κ)}
    (h : turns.Pairwise fun turn later => turn.model.isSome = true → later.model.isSome = true) :
    (windows3 turns).countP CacheWindow.isMixed ≤ 2 := by
  induction turns with
  | nil => exact Nat.zero_le _
  | cons a rest ih =>
    match rest with
    | [] => exact Nat.zero_le _
    | [_] => exact Nat.zero_le _
    | b :: c :: rest =>
      rw [windows3, List.countP_cons]
      by_cases hb : b.model.isSome = true
      · rw [countP_isMixed_named h.of_cons hb]
        split <;> omega
      by_cases hc : c.model.isSome = true
      · -- the last unnamed turn starts the last mixed window
        have hlater : (windows3 (b :: c :: rest)).countP CacheWindow.isMixed ≤ 1 := by
          cases rest with
          | nil => exact Nat.zero_le _
          | cons d rest =>
            rw [windows3, List.countP_cons, countP_isMixed_named h.of_cons.of_cons hc]
            split <;> omega
        split <;> omega
      · have ha : ¬a.model.isSome = true := fun ha =>
          hb (List.rel_of_pairwise_cons h List.mem_cons_self ha)
        have hsame : CacheWindow.isMixed (a, b, c) = false := by
          unfold CacheWindow.isMixed
          simp [ha, hb, hc]
        rw [hsame]
        simpa using ih h.of_cons

section

variable {turns : List (CacheTurn κ × Nat)} {run : CacheRun κ} (h : Tracks agent turns run)
  (hnamed : Named turns run)
include h hnamed

lemma Tracks.deferred_all :
    run.reducer.deferred =
      ((windows3 (turns.map Prod.fst)).filter CacheWindow.waits).map CacheWindow.deferred := by
  rw [h.deferred, List.take_of_length_le]
  rw [List.length_map, ← List.countP_eq_length_filter]
  have hmixed := countP_isMixed_le hnamed.sticky
  have hfewer : (windows3 (turns.map Prod.fst)).countP CacheWindow.waits ≤
      (windows3 (turns.map Prod.fst)).countP CacheWindow.isMixed :=
    List.countP_mono_left fun window _ hwaits => (Bool.and_eq_true _ _ ▸ hwaits).2
  exact (hfewer.trans hmixed).trans (by decide)

lemma mode2_agrees (summaryModel : Option κ) :
    let resolved := run.reducer.resolveDeferred summaryModel
    let reference := ((windows3 (turns.map fun turn => turn.1.known summaryModel)).filter
      fun (prev, current, next) => inferredCacheRehydrationTurn prev current &&
        recovers current next && sameKnownModel current.model next.model).map
          fun (prev, current, _) =>
            missEvent (rehydrationMinUserInactivitySecs agent) prev.contextTokens current
    ((run.mode2Patches ++ resolved.1).flatMap fun patch => patch.slot.missEvents).Perm reference ∧
      resolved.2.mode2 = missCounts reference := by
  intro resolved reference
  have hperm := windows_perm (rehydrationMinUserInactivitySecs agent) summaryModel
    (turns.map Prod.fst)
  rw [List.map_map] at hperm
  obtain ⟨hpatch, hcounts⟩ := resolveDeferred_spec summaryModel
    ((windows3 (turns.map Prod.fst)).filter CacheWindow.waits) []
    { run.reducer with deferred := [] } _ h.minimum h.mode2Counts
  rw [← h.deferred_all hnamed] at hpatch hcounts
  refine ⟨?_, ?_⟩
  · rw [List.flatMap_append, h.mode2Events]
    exact (List.Perm.of_eq (congrArg _ hpatch)).trans hperm
  · exact hcounts.trans (missCounts_perm hperm)

end

/-! ### Both modes -/

def namedTurns (agent : String) (events : List (CacheEvent κ)) : List (CacheTurn κ × Nat) :=
  (events.foldl (MissScan.step (rehydrationMinUserInactivitySecs agent))
    { activeModel := none }).cacheTurns.zip (events.filterMap cacheWrites)

def NamedTooLate (agent : String) (summaryModel : Option κ) (events : List (CacheEvent κ)) : Prop :=
  ∃ pair ∈ neighbours (namedTurns agent events), isLatePair summaryModel pair

lemma InStep.namedTurns {events : List (CacheEvent κ)}
    {turns : List (CacheTurn κ × Nat)} {run : CacheRun κ}
    (h : InStep agent turns run fun summaryModel =>
      events.foldl (MissScan.step (rehydrationMinUserInactivitySecs agent))
        { activeModel := summaryModel })
    (hwrites : turns.map Prod.snd = events.filterMap cacheWrites) :
    Antiburn.namedTurns agent events = turns.map fun turn => (turn.1.known none, turn.2) := by
  unfold Antiburn.namedTurns
  rw [(h.follows none).cacheTurns, ← hwrites, List.zip_map']

lemma isLatePair_known (summaryModel : Option κ)
    (pair : (CacheTurn κ × Nat) × (CacheTurn κ × Nat)) :
    isLatePair summaryModel ((pair.1.1.known none, pair.1.2), (pair.2.1.known none, pair.2.2)) ↔
      isLatePair summaryModel pair := by
  unfold isLatePair
  rw [isDirectPair_known, Option.or_none, Option.or_none]
  simp only [CacheTurn.known, Option.or_none, Bool.and_eq_true]
  refine and_congr_left fun _ => ⟨And.left, fun h => ⟨h, sameKnownModel_of_isDirectPair h⟩⟩

lemma namedTooLate_iff {summaryModel : Option κ}
    {events : List (CacheEvent κ)} {turns : List (CacheTurn κ × Nat)}
    (h : namedTurns agent events = turns.map fun turn => (turn.1.known none, turn.2)) :
    NamedTooLate agent summaryModel events ↔
      ∃ pair ∈ neighbours turns, isLatePair summaryModel pair := by
  unfold NamedTooLate
  rw [h, neighbours_map]
  constructor
  · rintro ⟨_, hmem, hlate⟩
    obtain ⟨pair, hpair, rfl⟩ := List.mem_map.mp hmem
    exact ⟨pair, hpair, (isLatePair_known summaryModel pair).mp hlate⟩
  · rintro ⟨pair, hpair, hlate⟩
    exact ⟨_, List.mem_map_of_mem hpair, (isLatePair_known summaryModel pair).mpr hlate⟩

lemma not_isDirectPair {turns : List (CacheTurn κ × Nat)}
    (h : (turns.any fun turn => decide (turn.2 > 0)) = false) :
    ∀ pair ∈ neighbours turns, ¬isDirectPair pair = true := by
  intro pair hpair hdirect
  have hmem : pair.2 ∈ turns := mem_of_mem_neighbours hpair
  unfold isDirectPair isDirectCacheEvent at hdirect
  rw [Bool.and_eq_true, decide_eq_true_eq] at hdirect
  have hzero := List.any_eq_false.mp h pair.2 hmem
  rw [decide_eq_true_eq] at hzero
  exact hzero (Nat.lt_of_lt_of_le (by decide) hdirect.1)

theorem cache_miss_agrees_iff (agent : String) (summaryModel : Option κ)
    (events : List (CacheEvent κ)) :
    let run := CacheRun.ofEvents agent events
    let reference := cacheMissEvents agent summaryModel events
    (run.classified summaryModel).Perm reference ∧
        run.counts summaryModel = missCounts reference ↔
      ¬NamedTooLate agent summaryModel events := by
  intro run reference
  obtain ⟨turns, hwrites, hstep⟩ := inStep_ofEvents agent events
  obtain ⟨htracks, hnamed, hfollows⟩ := id hstep
  rw [namedTooLate_iff (hstep.namedTurns hwrites)]
  unfold reference cacheMissEvents CacheRun.classified CacheRun.counts
  dsimp only
  rw [(hfollows summaryModel).explicit, (hfollows summaryModel).events,
    (hfollows summaryModel).cacheTurns]
  cases hexplicit : run.reducer.hasExplicitCacheWrites with
  | true =>
    rw [if_pos rfl, if_pos rfl, if_pos rfl, htracks.mode1Events, htracks.mode1Counts]
    have hlate := directEvents_perm_iff (rehydrationMinUserInactivitySecs agent) summaryModel
      hnamed
    rw [show (¬∃ pair ∈ neighbours turns, isLatePair summaryModel pair) ↔
      ∀ pair ∈ neighbours turns, ¬isLatePair summaryModel pair by simp, ← hlate]
    exact ⟨And.left, fun hperm => ⟨hperm, missCounts_perm hperm⟩⟩
  | false =>
    rw [if_neg Bool.false_ne_true, if_neg Bool.false_ne_true, if_neg Bool.false_ne_true]
    have hnone := not_isDirectPair (htracks.explicit ▸ hexplicit)
    have hevents : directEvents (rehydrationMinUserInactivitySecs agent)
        (turns.map fun turn => (turn.1.known summaryModel, turn.2)) = [] := by
      rw [directEvents_known, List.filter_eq_nil_iff.mpr, List.map_nil]
      intro pair hpair hknown
      rw [isDirectPair_known, Bool.and_eq_true] at hknown
      exact hnone pair hpair hknown.1
    rw [hevents, List.nil_append]
    exact iff_of_true (mode2_agrees htracks hnamed summaryModel)
      fun ⟨pair, hpair, hlate⟩ => hnone pair hpair hlate.1

/-- An unnamed turn, then one on `2` that writes its cache again; the summary says `1`. -/
theorem late_model_counts_a_miss :
    let events : List (CacheEvent Nat) :=
      [.turn (some 0) 100000 100000 0 none, .turn (some 60000) 100000 0 100000 (some 2)]
    let run := CacheRun.ofEvents "claude" events
    let reference := cacheMissEvents "claude" (some 1) events
    ¬((run.classified (some 1)).Perm reference ∧ run.counts (some 1) = missCounts reference) := by
  intro events run reference hagrees
  have hlength := hagrees.1.length_eq
  revert hlength
  decide

end Agreement

end Antiburn
