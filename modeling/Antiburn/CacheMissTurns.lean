/-
What the cache reducer holds.

`Tracks` says it of some turns: the last two of them, the direct events among all
neighbours, what could be decided of all windows, and the windows that wait for
the summary's model.
-/
import Antiburn.CacheMiss
import Antiburn.Lib.Window

namespace Antiburn

/-! ### Neighbours and windows -/

section Lists

variable {α β : Type}

def neighbours : List α → List (α × α)
  | a :: b :: rest => (a, b) :: neighbours (b :: rest)
  | _ => []

def lastTwo (items : List α) : List α := items.drop (items.length - 2)

lemma neighbours_snoc (items : List α) (item : α) :
    neighbours (items ++ [item]) =
      neighbours items ++ (items.getLast?.map fun prev => (prev, item)).toList := by
  induction items with
  | nil => rfl
  | cons a rest ih =>
    cases rest with
    | nil => rfl
    | cons b rest =>
      rw [List.cons_append, List.cons_append, neighbours, ← List.cons_append, ih]
      rfl

lemma neighbours_map (f : α → β) (items : List α) :
    neighbours (items.map f) = (neighbours items).map fun pair => (f pair.1, f pair.2) := by
  induction items with
  | nil => rfl
  | cons a rest ih =>
    cases rest with
    | nil => rfl
    | cons b rest => exact congrArg (List.cons _) ih

lemma windows3_map (f : α → β) (items : List α) :
    windows3 (items.map f) = (windows3 items).map fun w => (f w.1, f w.2.1, f w.2.2) := by
  induction items with
  | nil => rfl
  | cons a rest ih =>
    match rest with
    | [] => rfl
    | [_] => rfl
    | b :: c :: rest => exact congrArg (List.cons _) ih

lemma lastTwo_cons {a b c : α} {rest : List α} :
    lastTwo (a :: b :: c :: rest) = lastTwo (b :: c :: rest) := by
  unfold lastTwo
  simp only [List.length_cons]
  rw [show rest.length + 1 + 1 + 1 - 2 = (rest.length + 1 + 1 - 2) + 1 by omega,
    List.drop_succ_cons]

lemma windows3_snoc (items : List α) (item : α) :
    (∃ a b, lastTwo items = [a, b] ∧ windows3 (items ++ [item]) = windows3 items ++ [(a, b, item)] ∧
      lastTwo (items ++ [item]) = [b, item]) ∨
    (items.length < 2 ∧ lastTwo items = items ∧ windows3 (items ++ [item]) = windows3 items ∧
      lastTwo (items ++ [item]) = items ++ [item]) := by
  induction items with
  | nil => exact .inr ⟨by simp, rfl, rfl, rfl⟩
  | cons a rest ih =>
    match rest with
    | [] => exact .inr ⟨by simp, rfl, rfl, rfl⟩
    | [b] => exact .inl ⟨a, b, rfl, rfl, rfl⟩
    | b :: c :: rest =>
      rcases ih with ⟨x, y, htwo, hwind, hlast⟩ | ⟨hshort, -⟩
      · refine .inl ⟨x, y, by rw [lastTwo_cons, htwo], ?_, ?_⟩
        · exact congrArg (List.cons _) hwind
        · exact lastTwo_cons.trans hlast
      · simp only [List.length_cons] at hshort
        omega

lemma getLast?_lastTwo (items : List α) : (lastTwo items).getLast? = items.getLast? := by
  induction items with
  | nil => rfl
  | cons a rest ih =>
    match rest with
    | [] => rfl
    | [b] => rfl
    | b :: c :: rest =>
      rw [lastTwo_cons, ih]
      exact List.getLast?_cons_cons.symm

lemma filter_perm_filter_iff {p q : α → Bool} {items : List α}
    (himp : ∀ a ∈ items, q a = true → p a = true) (f : α → β) :
    ((items.filter p).map f).Perm ((items.filter q).map f) ↔
      ∀ a ∈ items, p a = true → q a = true := by
  constructor
  · intro hperm
    have hlen := hperm.length_eq
    rw [List.length_map, List.length_map] at hlen
    have hsub : (items.filter q).Sublist (items.filter p) := by
      have hboth : items.filter q = (items.filter p).filter q := by
        rw [List.filter_filter]
        refine List.filter_congr fun a ha => ?_
        cases hq : q a with
        | false => rfl
        | true => rw [himp a ha hq]; rfl
      rw [hboth]
      exact List.filter_sublist
    have heq := hsub.eq_of_length hlen.symm
    intro a ha hp
    have hmem : a ∈ items.filter q := heq ▸ List.mem_filter.mpr ⟨ha, hp⟩
    exact (List.mem_filter.mp hmem).2
  · intro h
    have heq : items.filter p = items.filter q := List.filter_congr fun a ha => by
      cases hq : q a with
      | true => exact himp a ha hq
      | false =>
        rw [← Bool.not_eq_true]
        intro hp
        rw [h a ha hp] at hq
        cases hq
    rw [heq]

lemma filter_or_perm {p q : α → Bool} {items : List α}
    (hexcl : ∀ a ∈ items, p a = true → q a = false) :
    (items.filter p ++ items.filter q).Perm (items.filter fun a => p a || q a) := by
  induction items with
  | nil => exact .refl _
  | cons a rest ih =>
    have hrest := ih fun b hb => hexcl b (List.mem_cons_of_mem _ hb)
    cases hp : p a with
    | true =>
      have hq := hexcl a List.mem_cons_self hp
      simpa [hp, hq] using hrest
    | false =>
      cases hq : q a with
      | true => simpa [hp, hq] using List.perm_middle.trans (hrest.cons a)
      | false => simpa [hp, hq] using hrest

end Lists

/-! ### Counting -/

lemma countSlot_classify (events : List MissEvent) (mark : CacheRehydrationMark)
    (gap minimum : Option Nat) :
    countSlot (missCounts events) (classify mark gap minimum) =
      missCounts (events ++ [⟨isRehydration minimum mark, mark⟩]) := by
  unfold countSlot classify missCounts saturatingAdd
  dsimp only
  cases isRehydration minimum mark with
  | true =>
    rw [if_pos rfl, List.countP_append, List.countP_append]
    simp only [List.countP_singleton, if_true, Bool.not_true, Bool.false_eq_true, if_false,
      Nat.add_zero, MissCounts.mk.injEq, and_true]
    omega
  | false =>
    rw [if_neg Bool.false_ne_true, Bool.not_false, if_pos rfl, List.countP_append,
      List.countP_append]
    simp only [List.countP_singleton, Bool.false_eq_true, if_false, Bool.not_false, if_true,
      Nat.add_zero, MissCounts.mk.injEq, true_and]
    omega

lemma missCounts_perm {events others : List MissEvent} (h : events.Perm others) :
    missCounts events = missCounts others := by
  unfold missCounts
  rw [h.countP_eq, h.countP_eq]

section Agreement

variable {κ : Type} [DecidableEq κ]

/-! ### What can be said of turns -/

def CacheTurn.known (summaryModel : Option κ) (turn : CacheTurn κ) : CacheTurn κ :=
  { turn with secsSincePriorTurn := none, model := turn.model.or summaryModel }

abbrev CacheWindow (κ : Type) : Type := CacheTurn κ × CacheTurn κ × CacheTurn κ

/-- A window whose middle turn lost its cache and got it back. -/
def CacheWindow.isCandidate (window : CacheWindow κ) : Bool :=
  inferredCacheRehydrationTurn window.1 window.2.1 && recovers window.2.1 window.2.2

def CacheWindow.isMixed (window : CacheWindow κ) : Bool :=
  [window.1.model, window.2.1.model, window.2.2.model].any Option.isNone &&
    [window.1.model, window.2.1.model, window.2.2.model].any Option.isSome

def CacheWindow.waits (window : CacheWindow κ) : Bool := window.isCandidate && window.isMixed

def CacheWindow.counts (window : CacheWindow κ) : Bool :=
  window.isCandidate && !window.isMixed &&
    modelsMatch window.1.model window.2.1.model window.2.2.model none

def CacheWindow.event (minimum : Option Nat) (window : CacheWindow κ) : MissEvent :=
  missEvent minimum window.1.contextTokens window.2.1

def CacheWindow.deferred (window : CacheWindow κ) : DeferredCache κ where
  ordinal := window.2.1.ordinal
  gap := window.2.1.secsSincePriorTurn
  previousModel := window.1.model
  currentModel := window.2.1.model
  nextModel := window.2.2.model
  rehydration := rehydrationMark window.1.contextTokens window.2.1

def isDirectPair (pair : (CacheTurn κ × Nat) × (CacheTurn κ × Nat)) : Bool :=
  isDirectCacheEvent pair.1.1 pair.2.1 pair.2.2

def directEvents (minimum : Option Nat) (turns : List (CacheTurn κ × Nat)) : List MissEvent :=
  ((neighbours turns).filter isDirectPair).map fun pair =>
    missEvent minimum pair.1.1.contextTokens pair.2.1

def promptEvents (minimum : Option Nat) (turns : List (CacheTurn κ)) : List MissEvent :=
  ((windows3 turns).filter CacheWindow.counts).map (CacheWindow.event minimum)

lemma directEvents_snoc (minimum : Option Nat) (turns : List (CacheTurn κ × Nat))
    (turn : CacheTurn κ × Nat) :
    directEvents minimum (turns ++ [turn]) = directEvents minimum turns ++
      match turns.getLast? with
      | some prev =>
        if isDirectCacheEvent prev.1 turn.1 turn.2 then
          [missEvent minimum prev.1.contextTokens turn.1]
        else []
      | none => [] := by
  unfold directEvents
  rw [neighbours_snoc, List.filter_append, List.map_append]
  cases turns.getLast? with
  | none => rfl
  | some prev =>
    dsimp only [Option.map_some, Option.toList_some]
    unfold isDirectPair
    cases hdirect : isDirectCacheEvent prev.1 turn.1 turn.2 <;> simp [hdirect]

/-! ### The reducer -/

structure Tracks (agent : String) (turns : List (CacheTurn κ × Nat)) (run : CacheRun κ) : Prop where
  minimum : run.reducer.rehydrationMinUserInactivitySecs = rehydrationMinUserInactivitySecs agent
  explicit : run.reducer.hasExplicitCacheWrites = turns.any fun turn => decide (turn.2 > 0)
  lastTurns : run.reducer.turns = lastTwo (turns.map Prod.fst)
  mode1Events : run.mode1Slots.flatMap CacheSlot.missEvents =
    directEvents (rehydrationMinUserInactivitySecs agent) turns
  mode1Counts : run.reducer.mode1 =
    missCounts (directEvents (rehydrationMinUserInactivitySecs agent) turns)
  mode2Events : (run.mode2Patches.flatMap fun patch => patch.slot.missEvents) =
    promptEvents (rehydrationMinUserInactivitySecs agent) (turns.map Prod.fst)
  mode2Counts : run.reducer.mode2 =
    missCounts (promptEvents (rehydrationMinUserInactivitySecs agent) (turns.map Prod.fst))
  deferred : run.reducer.deferred =
    (((windows3 (turns.map Prod.fst)).filter CacheWindow.waits).map
      CacheWindow.deferred).take MAX_DEFERRED_CACHE

lemma resolveWindow_spec (reducer : CacheReducer κ) (window : CacheWindow κ) :
    let resolved := reducer.resolveWindow window.1 window.2.1 window.2.2
    let slot := classify (rehydrationMark window.1.contextTokens window.2.1)
      window.2.1.secsSincePriorTurn reducer.rehydrationMinUserInactivitySecs
    resolved.1 = (if window.counts then some ⟨window.2.1.ordinal, slot⟩ else none) ∧
      resolved.2 = { reducer with
        mode2 := if window.counts then countSlot reducer.mode2 slot else reducer.mode2
        deferred :=
          if window.waits && decide (reducer.deferred.length < MAX_DEFERRED_CACHE) then
            reducer.deferred ++ [window.deferred]
          else reducer.deferred } := by
  obtain ⟨prev, current, next⟩ := window
  unfold CacheReducer.resolveWindow CacheWindow.counts CacheWindow.waits
  have hcand : (!inferredCacheRehydrationTurn prev current || !recovers current next) =
      !CacheWindow.isCandidate (prev, current, next) := by
    unfold CacheWindow.isCandidate
    rw [Bool.not_and]
  have hmixed : ([prev.model, current.model, next.model].any Option.isNone &&
      [prev.model, current.model, next.model].any Option.isSome) =
        CacheWindow.isMixed (prev, current, next) := rfl
  dsimp only
  rw [hcand, hmixed]
  cases CacheWindow.isCandidate (prev, current, next) with
  | false => exact ⟨rfl, rfl⟩
  | true =>
    cases CacheWindow.isMixed (prev, current, next) with
    | true =>
      by_cases hroom : reducer.deferred.length < MAX_DEFERRED_CACHE
      · simp [hroom, CacheWindow.deferred]
      · simp [hroom]
    | false =>
      cases modelsMatch prev.model current.model next.model none with
      | false | true => exact ⟨rfl, rfl⟩

lemma promptEvents_snoc (minimum : Option Nat) {turns : List (CacheTurn κ)}
    {turn : CacheTurn κ} {window : CacheWindow κ}
    (h : windows3 (turns ++ [turn]) = windows3 turns ++ [window]) :
    promptEvents minimum (turns ++ [turn]) = promptEvents minimum turns ++
      if window.counts then [window.event minimum] else [] := by
  unfold promptEvents
  rw [h, List.filter_append, List.map_append]
  cases hcounts : window.counts <;> simp [hcounts]

variable {reducer : CacheReducer κ}

lemma directSlot_spec {agent : String} {turns : List (CacheTurn κ × Nat)}
    (hmin : reducer.rehydrationMinUserInactivitySecs = rehydrationMinUserInactivitySecs agent)
    (hturns : reducer.turns = lastTwo (turns.map Prod.fst)) (turn : CacheTurn κ) (writes : Nat) :
    let minimum := rehydrationMinUserInactivitySecs agent
    let before := directEvents minimum turns
    let after := directEvents minimum (turns ++ [(turn, writes)])
    let direct := reducer.directSlot turn writes
    after = before ++ (direct.getD {}).missEvents ∧
      (direct.map (countSlot (missCounts before))).getD (missCounts before) =
        missCounts after := by
  intro minimum before after direct
  have hlast : reducer.turns.getLast? = turns.getLast?.map Prod.fst := by
    rw [hturns, getLast?_lastTwo, List.getLast?_map]
  show directEvents minimum (turns ++ [(turn, writes)]) = _ ∧
    _ = missCounts (directEvents minimum (turns ++ [(turn, writes)]))
  rw [directEvents_snoc]
  unfold direct CacheReducer.directSlot
  rw [hlast, hmin]
  cases turns.getLast? with
  | none => exact ⟨rfl, by rw [List.append_nil]; rfl⟩
  | some prev =>
    dsimp only [Option.map_some]
    cases isDirectCacheEvent prev.1 turn writes with
    | false => exact ⟨rfl, by simp [before, minimum]⟩
    | true => exact ⟨rfl, countSlot_classify _ _ _ _⟩

def CacheReducer.observed (reducer : CacheReducer κ) (input : CacheInput κ) : CacheReducer κ :=
  { reducer with
    hasExplicitCacheWrites :=
      reducer.hasExplicitCacheWrites || decide (input.cacheWriteTokens > 0)
    firstTurnAfterCompaction := false
    previousTurnTs := input.timestamp
    pendingUserPrompt := false
    pendingUserPromptTs := none
    mode1 := ((reducer.directSlot (reducer.turnOf input) input.cacheWriteTokens).map
      (countSlot reducer.mode1)).getD reducer.mode1 }

lemma observe_window {prev current : CacheTurn κ}
    (h : reducer.turns = [prev, current]) (input : CacheInput κ) :
    reducer.observe input =
      let turn := reducer.turnOf input
      let resolved := CacheReducer.resolveWindow
        { reducer.observed input with turns := [current, turn] } prev current turn
      (((reducer.directSlot turn input.cacheWriteTokens).getD {}, resolved.1,
        turn.secsSincePriorTurn), resolved.2) := by
  unfold CacheReducer.observe
  rw [h]
  rfl

lemma observe_short (h : reducer.turns.length < 2)
    (input : CacheInput κ) :
    reducer.observe input =
      let turn := reducer.turnOf input
      (((reducer.directSlot turn input.cacheWriteTokens).getD {}, none,
        turn.secsSincePriorTurn),
        { reducer.observed input with turns := reducer.turns ++ [turn] }) := by
  unfold CacheReducer.observe
  match hturns : reducer.turns with
  | [] => rfl
  | [_] => rfl
  | _ :: _ :: _ =>
    rw [hturns] at h
    simp only [List.length_cons] at h
    omega

lemma observe_frame (reducer : CacheReducer κ) (input : CacheInput κ) :
    ∃ turns mode2 deferred, (reducer.observe input).2 =
      { reducer.observed input with turns, mode2, deferred } := by
  unfold CacheReducer.observe
  dsimp only
  split
  next prev current next _ =>
    exact ⟨_, _, _, (resolveWindow_spec _ (prev, current, next)).2⟩
  next => exact ⟨_, _, _, rfl⟩

lemma Tracks.observe {agent : String} {turns : List (CacheTurn κ × Nat)} {run : CacheRun κ}
    (h : Tracks agent turns run) (input : CacheInput κ) (activeModel : Option κ) :
    let observed := run.reducer.observe input
    Tracks agent (turns ++ [(run.reducer.turnOf input, input.cacheWriteTokens)])
      { reducer := observed.2
        activeModel
        observedTurns := run.observedTurns + 1
        mode1Slots := run.mode1Slots ++ [observed.1.1]
        mode2Patches := run.mode2Patches ++ observed.1.2.1.toList } := by
  obtain ⟨hmin, hexp, hturns, hmode1, hcounts1, hmode2, hcounts2, hdefer⟩ := h
  obtain ⟨hevents, hcounts⟩ := directSlot_spec hmin hturns (run.reducer.turnOf input)
    input.cacheWriteTokens
  rw [← hcounts1] at hcounts
  have hslots : (run.mode1Slots ++ [(run.reducer.directSlot (run.reducer.turnOf input)
      input.cacheWriteTokens).getD {}]).flatMap CacheSlot.missEvents =
        directEvents (rehydrationMinUserInactivitySecs agent)
          (turns ++ [(run.reducer.turnOf input, input.cacheWriteTokens)]) := by
    rw [List.flatMap_append, hmode1, hevents]
    simp only [List.flatMap_cons, List.flatMap_nil, List.append_nil]
  have hwrites : (run.reducer.hasExplicitCacheWrites || decide (input.cacheWriteTokens > 0)) =
      (turns ++ [(run.reducer.turnOf input, input.cacheWriteTokens)]).any
        fun turn => decide (turn.2 > 0) := by
    rw [List.any_append, hexp]
    simp
  rcases windows3_snoc (turns.map Prod.fst) (run.reducer.turnOf input) with
    ⟨prev, current, htwo, hwind, hlast⟩ | ⟨hshort, hall, hwind, hlast⟩
  · -- the window of the last two turns and this one is decided now, or waits
    rw [observe_window (hturns.trans htwo)]
    dsimp only
    obtain ⟨hpatch, hreducer⟩ := resolveWindow_spec
      { run.reducer.observed input with turns := [current, run.reducer.turnOf input] }
      (prev, current, run.reducer.turnOf input)
    rw [hpatch, hreducer]
    have hprompt := promptEvents_snoc (rehydrationMinUserInactivitySecs agent) hwind
    refine ⟨hmin, hwrites, ?_, hslots, hcounts, ?_, ?_, ?_⟩
    · rw [List.map_append, List.map_singleton, hlast]
    · rw [List.map_append, List.map_singleton, hprompt, List.flatMap_append, hmode2]
      cases CacheWindow.counts (prev, current, run.reducer.turnOf input) with
      | false => rfl
      | true =>
        show _ ++ [_] = _ ++ [_]
        rw [show (run.reducer.observed input).rehydrationMinUserInactivitySecs =
          rehydrationMinUserInactivitySecs agent from hmin]
        rfl
    · rw [List.map_append, List.map_singleton, hprompt]
      cases CacheWindow.counts (prev, current, run.reducer.turnOf input) with
      | false =>
        show run.reducer.mode2 = missCounts (_ ++ [])
        rw [List.append_nil, hcounts2]
      | true =>
        show countSlot run.reducer.mode2 (classify _ _ run.reducer.rehydrationMinUserInactivitySecs)
          = _
        rw [hcounts2, countSlot_classify, hmin]
        rfl
    · rw [List.map_append, List.map_singleton, hwind, List.filter_append, List.map_append]
      have hkeeps : (([(prev, current, run.reducer.turnOf input)] : List (CacheWindow κ)).filter
          CacheWindow.waits).map CacheWindow.deferred =
            if CacheWindow.waits (prev, current, run.reducer.turnOf input) then
              [CacheWindow.deferred (prev, current, run.reducer.turnOf input)]
            else [] := by
        rw [List.filter_singleton]
        cases CacheWindow.waits (prev, current, run.reducer.turnOf input) <;> rfl
      rw [hkeeps]
      exact take_snoc_if hdefer
  · rw [observe_short (by rw [hturns, hall]; exact hshort)]
    dsimp only
    have hprompt : promptEvents (rehydrationMinUserInactivitySecs agent)
        (turns.map Prod.fst ++ [run.reducer.turnOf input]) =
          promptEvents (rehydrationMinUserInactivitySecs agent) (turns.map Prod.fst) := by
      unfold promptEvents
      rw [hwind]
    refine ⟨hmin, hwrites, ?_, hslots, hcounts, ?_, ?_, ?_⟩
    · rw [List.map_append, List.map_singleton, hlast, hturns, hall]
    · rw [Option.toList_none, List.append_nil, List.map_append, List.map_singleton, hprompt,
        hmode2]
    · rw [List.map_append, List.map_singleton, hprompt]
      exact hcounts2
    · rw [List.map_append, List.map_singleton, hwind]
      exact hdefer

end Agreement

end Antiburn
