/-
The efficiency reducer and its definition.

Where no message returns after 64 newer turns, both group the records alike, and
where every turn with output finishes at most 64 places after its rank, both fold
the turns in the same order.  The reducer keeps the first 1,440 rewrite marks.
-/
import Antiburn.EfficiencyWindows
import Antiburn.Lib.Sorting
import Antiburn.Lib.Window

namespace Antiburn

/-! ### Grouping -/

/-- No message receives a record after 64 newer turns have opened. -/
def ReturnsInTime (inputs : List EfficiencyInput) : Prop :=
  ∀ before input after, inputs = before ++ input :: after → input.role = .assistant →
    ∀ key, input.messageKey = some key →
      ∀ older group newer, (Grouping.ofInputs before).turns = older ++ group :: newer →
        group.id = some key → newer.length < MAX_OPEN_MESSAGES

lemma joinGroup_append {key : MessageKey} (input : EfficiencyInput) {older : List ReferenceTurn}
    (h : ∀ group ∈ older, group.id ≠ some key) (newer : List ReferenceTurn) :
    joinGroup key input (older ++ newer) = (joinGroup key input newer).map (older ++ ·) := by
  induction older with
  | nil => cases hnewer : joinGroup key input newer <;> simp [hnewer]
  | cons group older ih =>
    have hrest := ih fun other hother => h other (List.mem_cons_of_mem _ hother)
    rw [List.cons_append, joinGroup, if_neg (h group List.mem_cons_self), hrest, Option.map_map]
    rfl

variable {input : EfficiencyInput}

lemma stepAmong_eq {among : List ReferenceTurn → Nat} {grouping : Grouping}
    (h : ReturnsToNone (grouping.turns.take (among grouping.turns)) input) :
    grouping.stepAmong among input = grouping.stepAmong (fun _ => 0) input := by
  unfold Grouping.stepAmong
  simp only [List.splitAt_eq, List.take_zero, List.drop_zero, List.nil_append]
  by_cases hrole : input.role ≠ .assistant
  · rw [if_pos hrole, if_pos hrole]
  rw [if_neg hrole, if_neg hrole]
  cases hkey : input.messageKey with
  | none => rfl
  | some key =>
    have hall := joinGroup_append input (h (not_not.mp hrole) key hkey)
      (grouping.turns.drop (among grouping.turns))
    rw [List.take_append_drop] at hall
    dsimp only [Option.bind_some]
    rw [hall]
    cases joinGroup key input (grouping.turns.drop (among grouping.turns)) <;> rfl

variable {inputs : List EfficiencyInput}

lemma ReturnsInTime.last (h : ReturnsInTime (inputs ++ [input])) :
    ReturnsToNone ((Grouping.ofInputs inputs).turns.take
      ((Grouping.ofInputs inputs).turns.length - MAX_OPEN_MESSAGES)) input := by
  intro hrole key hkey group hgroup hid
  obtain ⟨older, between, hsplit⟩ := List.append_of_mem hgroup
  set turns := (Grouping.ofInputs inputs).turns
  have hturns : turns = older ++ group ::
      (between ++ turns.drop (turns.length - MAX_OPEN_MESSAGES)) := by
    rw [← List.cons_append, ← List.append_assoc, ← hsplit, List.take_append_drop]
  have hfew := h inputs input [] rfl hrole key hkey older group _ hturns hid
  rw [List.length_append, List.length_drop] at hfew
  have hpos : 0 < turns.length - MAX_OPEN_MESSAGES := by
    by_contra hzero
    rw [Nat.eq_zero_of_not_pos hzero] at hgroup
    exact absurd hgroup List.not_mem_nil
  omega

lemma ReturnsInTime.init (h : ReturnsInTime (inputs ++ [input])) : ReturnsInTime inputs := by
  intro before other after hsplit
  refine h before other (after ++ [input]) ?_
  rw [hsplit, List.append_assoc]
  rfl

section Agreement

variable {ρ : Type} (lookup : String → Option String → Option ρ)

lemma windowed_eq (h : ReturnsInTime inputs) :
    Grouping.windowed inputs = Grouping.ofInputs inputs ∧
      (EfficiencyReducer.ofInputs lookup inputs).openOverflow = 0 := by
  induction inputs using List.reverseRecOn with
  | nil => exact ⟨rfl, rfl⟩
  | append_singleton inputs input ih =>
    obtain ⟨hgroups, hquiet⟩ := ih h.init
    have hreturns := h.last
    refine ⟨?_, ?_⟩
    · unfold Grouping.windowed Grouping.ofInputs
      rw [List.foldl_append, List.foldl_append, List.foldl_cons, List.foldl_cons, List.foldl_nil,
        List.foldl_nil]
      show Grouping.stepAmong _ (Grouping.windowed inputs) input =
        Grouping.stepAmong _ (Grouping.ofInputs inputs) input
      rw [hgroups]
      exact stepAmong_eq hreturns
    · obtain ⟨older, newer, left, hwindow⟩ := inWindow_ofInputs lookup inputs
      have hreturns' : ReturnsToNone older input := by
        rw [← hgroups, hwindow.turns, hwindow.tracks.older_length, List.take_left] at hreturns
        exact hreturns
      have hlast := (hwindow.observe input).2 hreturns'
      unfold EfficiencyReducer.ofInputs
      rw [List.foldl_append]
      exact hlast.trans hquiet

/-! ### Folding -/

structure SameFold (state : EfficiencyFold) (reference : ReferenceFold) : Prop where
  totals : state.totals = reference.totals
  fallback : state.fallbackOverflow = reference.fallback
  rewrites : state.rewriteMarks = reference.rewrites.take MAX_REWRITE_MARKS
  previous : state.previousContext = reference.previousContext
  previousParent : state.previousParentContext = reference.previousParentContext

variable {state : EfficiencyFold} {reference : ReferenceFold}

lemma markRewrite_spec
    (hmarks : state.rewriteMarks = reference.rewrites.take MAX_REWRITE_MARKS)
    (hparent : state.previousParentContext = reference.previousParentContext)
    (group : ReferenceTurn) (creation : Nat) :
    state.markRewrite (group.turn lookup creation) = { state with
      previousParentContext :=
        if group.source = EventSource.parent then some group.usage.contextTokens
        else reference.previousParentContext
      rewriteMarks :=
        (reference.rewrites ++ reference.rewritten group).take MAX_REWRITE_MARKS } := by
  unfold EfficiencyFold.markRewrite ReferenceFold.rewritten
  by_cases hsource : group.source = EventSource.parent
  · rw [if_pos (show (group.turn lookup creation).source = EventSource.parent from hsource),
      if_pos hsource, ← hparent]
    have htake := @take_snoc_if RewriteMark state.rewriteMarks reference.rewrites MAX_REWRITE_MARKS
      (decide (derivedRewriteTokens group.usage
        (growthSince state.previousParentContext group.usage.contextTokens) > 0))
      ⟨group.ts, group.ordinal, derivedRewriteTokens group.usage
        (growthSince state.previousParentContext group.usage.contextTokens)⟩ hmarks
    simp only [Bool.and_eq_true, decide_eq_true_eq] at htake
    dsimp only [ReferenceTurn.turn]
    rw [htake]
    simp only [hsource, true_and]
    rfl
  · rw [if_neg (show ¬(group.turn lookup creation).source = EventSource.parent from hsource),
      if_neg hsource, ← hparent]
    simp only [hsource, false_and, if_false, List.append_nil]
    rw [← hmarks]

def ReferenceTurn.addTotals (group : ReferenceTurn) (growth : Nat) (totals : EfficiencyTotals) :
    EfficiencyTotals :=
  match group.model with
  | none => totals
  | some model =>
    if (modelName model).isEmpty then totals.addUnpriced 1
    else if (priceAt lookup group.fast (modelName model)).isSome then
      totals.addPriced growth group.usage.outputTokens 1
    else totals.addUnpriced 1

def ReferenceTurn.addFallback (group : ReferenceTurn) (growth : Nat)
    (fallback : FallbackOverflow × FallbackOverflow) : FallbackOverflow × FallbackOverflow :=
  match group.model with
  | none =>
    if group.fast then (fallback.1, fallback.2.add group.usage growth)
    else (fallback.1.add group.usage growth, fallback.2)
  | some _ => fallback

lemma countTurn_spec (state : EfficiencyFold) (group : ReferenceTurn) (creation growth : Nat) :
    state.countTurn (group.turn lookup creation) growth = { state with
      totals := group.addTotals lookup growth state.totals
      fallbackOverflow := group.addFallback growth state.fallbackOverflow } := by
  obtain ⟨ordinal, ts, id, source, model, fast, usage⟩ := group
  unfold EfficiencyFold.countTurn ReferenceTurn.addTotals ReferenceTurn.addFallback
  dsimp only [ReferenceTurn.turn]
  cases model with
  | none => rfl
  | some model =>
    unfold modelStatus priceAt
    dsimp only
    by_cases hempty : (modelName model).isEmpty = true
    · rw [if_pos hempty, if_pos hempty]
      cases fast <;> rfl
    · rw [if_neg hempty, if_neg hempty]
      cases fast with
      | true =>
        simp only [if_true]
        cases lookup (modelName model) (some "fast") <;> rfl
      | false =>
        simp only [Bool.false_eq_true, if_false]
        cases lookup (modelName model) none <;> rfl

lemma step_spec (reference : ReferenceFold) (group : ReferenceTurn) :
    let growth := growthSince reference.previousContext group.usage.contextTokens
    reference.step lookup group =
      { totals := group.addTotals lookup growth reference.totals
        fallback := group.addFallback growth reference.fallback
        rewrites := reference.rewrites ++ reference.rewritten group
        previousContext := some group.usage.contextTokens
        previousParentContext :=
          if group.source = EventSource.parent then some group.usage.contextTokens
          else reference.previousParentContext } := by
  intro growth
  unfold ReferenceFold.step ReferenceTurn.addTotals ReferenceTurn.addFallback
  cases group.model with
  | none => rfl
  | some model =>
    dsimp only
    by_cases hempty : (modelName model).isEmpty = true
    · rw [if_pos hempty, if_pos hempty]
    · rw [if_neg hempty, if_neg hempty]
      cases priceAt lookup group.fast (modelName model) <;> rfl

lemma SameFold.fold
    (h : SameFold state reference) (group : ReferenceTurn) (creation : Nat) :
    SameFold (state.fold (group.turn lookup creation)) (reference.step lookup group) := by
  obtain ⟨htotals, hfallback, hmarks, hprev, hparent⟩ := h
  unfold EfficiencyFold.fold
  dsimp only
  rw [markRewrite_spec lookup (by exact hmarks) (by exact hparent), countTurn_spec, step_spec,
    hprev]
  exact ⟨congrArg (group.addTotals lookup _) htotals, congrArg (group.addFallback _) hfallback,
    rfl, rfl, rfl⟩

lemma SameFold.foldl (groups : List (ReferenceTurn × Nat))
    (h : SameFold state reference) :
    SameFold ((groups.map fun group => group.1.turn lookup group.2).foldl .fold state)
      ((groups.map Prod.fst).foldl (ReferenceFold.step lookup) reference) := by
  induction groups generalizing state reference with
  | nil => exact h
  | cons group groups ih => exact ih (h.fold lookup group.1 group.2)

lemma applyFallback_eq (fallbackModel : Option String) (fast : Bool) :
    EfficiencyReducer.applyFallback (modelStatus lookup fallbackModel) fast =
      ReferenceFold.settle lookup fallbackModel fast := by
  funext totals contribution
  unfold EfficiencyReducer.applyFallback ReferenceFold.settle modelStatus
  cases fallbackModel with
  | none => rfl
  | some model =>
    dsimp only [Option.map_some]
    by_cases hempty : (modelName model).isEmpty = true
    · rw [if_pos hempty, Option.filter_some]
      cases fast <;> simp [hempty]
    · rw [if_neg hempty, Option.filter_some]
      unfold priceAt
      cases fast <;> simp [hempty]

/-! ### The order of folding -/

lemma lastFolded_fold (state : EfficiencyFold) (turn : Turn ρ) :
    (state.fold turn).lastFolded = some turn.key ∧
      (state.fold turn).reorderOverflow =
        if state.lastFolded.any fun last => keyLt turn.key last then
          saturatingAdd state.reorderOverflow 1
        else state.reorderOverflow := by
  unfold EfficiencyFold.fold EfficiencyFold.countTurn EfficiencyFold.markRewrite
  dsimp only
  cases turn.model with
  | missing =>
    by_cases hsource : turn.source = EventSource.parent
    · rw [if_pos hsource]
      exact ⟨rfl, rfl⟩
    · rw [if_neg hsource]
      exact ⟨rfl, rfl⟩
  | known standard fast =>
    dsimp only
    by_cases hsource : turn.source = EventSource.parent
    · rw [if_pos hsource]
      split <;> exact ⟨rfl, rfl⟩
    · rw [if_neg hsource]
      split <;> exact ⟨rfl, rfl⟩

lemma reorderOverflow_foldl {turns : List (Turn ρ)}
    (h : turns.Pairwise fun turn later => turn.place < later.place) :
    (turns.foldl EfficiencyFold.fold {}).lastFolded = turns.getLast?.map Turn.key ∧
      (turns.foldl EfficiencyFold.fold {}).reorderOverflow = 0 := by
  induction turns using List.reverseRecOn with
  | nil => exact ⟨rfl, rfl⟩
  | append_singleton turns turn ih =>
    rw [List.pairwise_append] at h
    obtain ⟨hlast, hnone⟩ := ih h.1
    rw [List.foldl_append, List.foldl_cons, List.foldl_nil]
    obtain ⟨hfolded, hoverflow⟩ := lastFolded_fold (turns.foldl EfficiencyFold.fold {}) turn
    refine ⟨by rw [hfolded, List.getLast?_concat]; rfl, ?_⟩
    rw [hoverflow, hlast, hnone, if_neg]
    rw [Option.any_map]
    cases hprev : turns.getLast? with
    | none => simp
    | some prev =>
      have hbefore := h.2.2 prev (List.mem_of_getLast? hprev) turn List.mem_cons_self
      have hbehind : ¬keyLt turn.key prev.key = true := fun hlt =>
        ((keyLt_key _ _).mp hlt).asymm hbefore
      simpa using hbehind

/-! ### Sorting -/

def ReferenceTurn.before (turn later : ReferenceTurn) : Bool := decide (turn.ts ≤ later.ts)

abbrev PlacedTurn : Type := ReferenceTurn × Nat

def PlacedTurn.before (turn later : PlacedTurn) : Bool := turn.1.before later.1

lemma turnsFrom_eq (groups : List ReferenceTurn) (creation : Nat) :
    turnsFrom lookup creation groups =
      (groups.zipIdx creation).map fun group => group.1.turn lookup group.2 := by
  induction groups generalizing creation with
  | nil => rfl
  | cons group rest ih => exact congrArg (List.cons _) (ih _)

lemma mergeSort_placed {placed : List PlacedTurn}
    (h : placed.Pairwise fun turn later => turn.2 < later.2) :
    (placed.mergeSort PlacedTurn.before).Pairwise fun turn later =>
      (turn.1.turn lookup turn.2).place < (later.1.turn lookup later.2).place := by
  have htrans : ∀ a b c : PlacedTurn,
      a.before b = true → b.before c = true → a.before c = true := by
    intro a b c hab hbc
    unfold PlacedTurn.before ReferenceTurn.before at *
    rw [decide_eq_true_eq] at *
    exact hab.trans hbc
  have htotal : ∀ a b : PlacedTurn, (a.before b || b.before a) = true := by
    intro a b
    unfold PlacedTurn.before ReferenceTurn.before
    simpa using le_total a.1.ts b.1.ts
  rw [List.pairwise_iff_forall_sublist]
  intro turn later hsub
  have hle := List.pairwise_iff_forall_sublist.mp
    (List.pairwise_mergeSort htrans htotal placed) hsub
  unfold PlacedTurn.before ReferenceTurn.before at hle
  rw [decide_eq_true_eq] at hle
  rw [Turn.place, Turn.place, Prod.Lex.toLex_lt_toLex]
  rcases hle.lt_or_eq with hlt | heq
  · exact .inl hlt
  · -- turns of one time stay in the order in which they opened
    refine .inr ⟨heq, ?_⟩
    have hstable := @Sorting.filter_mergeSort_of_equal PlacedTurn
      (fun other => decide (other.1.ts = later.1.ts)) _ htrans htotal placed ?_
    · have hboth := hsub.filter fun other => decide (other.1.ts = later.1.ts)
      rw [hstable, List.filter_cons_of_pos (by simpa using heq),
        List.filter_cons_of_pos (by simp), List.filter_nil] at hboth
      exact List.pairwise_iff_forall_sublist.mp h (hboth.trans List.filter_sublist)
    · intro a b ha hb
      rw [decide_eq_true_eq] at ha hb
      unfold PlacedTurn.before ReferenceTurn.before
      rw [ha, hb]
      simp

lemma foldOrder_eq {groups : List ReferenceTurn} {order : List (Turn ρ)}
    (hsorted : order.Pairwise fun turn later => turn.place < later.place)
    (hperm : order.Perm ((turnsFrom lookup 0 groups).filter Turn.hasOutput)) :
    ∃ placed : List PlacedTurn,
      order = placed.map (fun turn => turn.1.turn lookup turn.2) ∧
        placed.map Prod.fst =
          (groups.filter ReferenceTurn.hasOutput).mergeSort ReferenceTurn.before := by
  have hplaced : groups.zipIdx.Pairwise fun turn later => turn.2 < later.2 := by
    have hrange := @List.pairwise_lt_range' 0 groups.length 1 Nat.one_pos
    rw [← List.zipIdx_map_snd 0 groups] at hrange
    exact List.pairwise_map.mp hrange
  have hkept := hplaced.filter fun turn => turn.1.hasOutput
  refine ⟨(groups.zipIdx.filter fun turn => turn.1.hasOutput).mergeSort PlacedTurn.before, ?_, ?_⟩
  · refine List.Perm.eq_of_pairwise ?_ hsorted
      (List.pairwise_map.mpr (mergeSort_placed lookup hkept)) ?_
    · intro turn later _ _ hlt hgt
      exact absurd hlt hgt.asymm
    · refine hperm.trans ?_
      rw [turnsFrom_eq, List.filter_map]
      exact ((List.mergeSort_perm _ _).map _).symm
  · have hsort := @List.map_mergeSort PlacedTurn ReferenceTurn PlacedTurn.before
      ReferenceTurn.before Prod.fst (groups.zipIdx.filter fun turn => turn.1.hasOutput)
      fun _ _ _ _ => rfl
    rw [hsort]
    conv => rhs; rw [← List.zipIdx_map_fst 0 groups, List.filter_map]
    rfl

/-! ### The agreement -/

/-- Every turn with output is finalized at most 64 places after its rank by time and creation. -/
def FinishesInPlace (inputs : List EfficiencyInput) : Prop :=
  Reorder.InPlace Turn.place MAX_EFF_REORDER
    ((turnsFrom lookup 0 (Grouping.ofInputs inputs).turns).filter Turn.hasOutput)

lemma creation_turnsFrom (creation : Nat) (groups : List ReferenceTurn) :
    (turnsFrom lookup creation groups).map Turn.creation =
      List.range' creation groups.length := by
  rw [turnsFrom_eq, List.map_map, ← List.zipIdx_map_snd creation groups]
  rfl

lemma nodup_keys (groups : List ReferenceTurn) :
    (((turnsFrom lookup 0 groups).filter Turn.hasOutput).map Turn.place).Nodup := by
  have hcreations : (((turnsFrom lookup 0 groups).filter Turn.hasOutput).map
      Turn.creation).Nodup := by
    refine List.Nodup.sublist (List.filter_sublist.map _) ?_
    rw [creation_turnsFrom]
    exact List.nodup_range'
  refine List.Nodup.of_map (fun key : Int ×ₗ Nat => (ofLex key).2) ?_
  rw [List.map_map]
  exact hcreations

lemma finish_agrees (hreturns : ReturnsInTime inputs)
    (hplaces : FinishesInPlace lookup inputs) (fallbackModel : Option String) :
    let reducer := EfficiencyReducer.ofInputs lookup inputs
    let reference := referenceEfficiency lookup inputs fallbackModel
    reducer.finish lookup fallbackModel = reference.1 ∧
      reducer.rewriteMarks = reference.2.take MAX_REWRITE_MARKS ∧
      reducer.flush.openOverflow = 0 ∧ reducer.flush.folded.reorderOverflow = 0 := by
  intro reducer reference
  obtain ⟨hgroups, hquiet⟩ := windowed_eq lookup hreturns
  obtain ⟨older, newer, left, hwindow⟩ := inWindow_ofInputs lookup inputs
  obtain ⟨inside, left, drained, hruns, hdrains, hfolded, hopen⟩ := hwindow.flush
  rw [hgroups] at hruns
  have hsorted := Reorder.pairwise_of_inPlace hruns hdrains (nodup_keys lookup _) hplaces
  obtain ⟨placed, horder, hrefn⟩ := foldOrder_eq lookup hsorted
    (Reorder.perm_of_drains hruns hdrains)
  have hnone := (reorderOverflow_foldl hsorted).2
  rw [← hfolded] at hnone
  have hsame : SameFold reducer.flush.folded (referenceFold lookup inputs) := by
    rw [show reducer.flush.folded = _ from hfolded, horder]
    unfold referenceFold
    rw [show (fun turn later : ReferenceTurn => decide (turn.ts ≤ later.ts)) =
      ReferenceTurn.before from rfl, ← hrefn]
    exact SameFold.foldl lookup placed ⟨rfl, rfl, rfl, rfl, rfl⟩
  refine ⟨?_, hsame.rewrites, hopen.trans hquiet, hnone⟩
  unfold EfficiencyReducer.finish
  dsimp only
  rw [applyFallback_eq, applyFallback_eq, hsame.totals, hsame.fallback]
  rfl

/-- **The efficiency reducer is group, sort and fold**, where no message returns after 64 newer
turns and every turn with output finishes at most 64 places after its rank; of the rewrite marks it
keeps the first 1,440.  On any input it folds every turn with output once. -/
theorem efficiency_agrees (inputs : List EfficiencyInput) (fallbackModel : Option String) :
    let reducer := EfficiencyReducer.ofInputs lookup inputs
    let reference := referenceEfficiency lookup inputs fallbackModel
    (ReturnsInTime inputs → FinishesInPlace lookup inputs →
      reducer.finish lookup fallbackModel = reference.1 ∧
        reducer.rewriteMarks = reference.2.take MAX_REWRITE_MARKS ∧
        reducer.flush.openOverflow = 0 ∧ reducer.flush.folded.reorderOverflow = 0) ∧
      ∃ folded : List (Turn ρ),
        folded.Perm ((turnsFrom lookup 0 (Grouping.windowed inputs).turns).filter Turn.hasOutput) ∧
          reducer.flush.folded = folded.foldl .fold {} :=
  ⟨fun hreturns hplaces => finish_agrees lookup hreturns hplaces fallbackModel,
    flush_folds_once lookup inputs⟩

/-! ### Too many marks -/

/-- A turn that writes its whole context again. -/
def rewritingInput : EfficiencyInput where
  ordinal := 0
  tsMs := none
  role := .assistant
  source := .parent
  messageId := none
  model := none
  speed := none
  usage := { inputTokens := 10, outputTokens := 1 }

def rewritingGroup : ReferenceTurn := rewritingInput.group (-(2 ^ 63))

lemma ofInputs_rewriting (count : Nat) :
    Grouping.ofInputs (List.replicate count rewritingInput) =
      { turns := List.replicate count rewritingGroup } := by
  induction count with
  | zero => rfl
  | succ count ih =>
    unfold Grouping.ofInputs at ih ⊢
    rw [List.replicate_succ', List.foldl_append, ih, List.replicate_succ']
    rfl

lemma returnsInTime_rewriting (count : Nat) :
    ReturnsInTime (List.replicate count rewritingInput) := by
  intro before input after hsplit _ key hkey
  have hmem : input ∈ List.replicate count rewritingInput := by
    rw [hsplit]
    exact List.mem_append_right _ List.mem_cons_self
  rw [List.eq_of_mem_replicate hmem] at hkey
  cases hkey

lemma finishesInPlace_rewriting (count : Nat) :
    FinishesInPlace lookup (List.replicate count rewritingInput) := by
  unfold FinishesInPlace
  rw [ofInputs_rewriting]
  refine Reorder.inPlace_of_pairwise (List.Pairwise.filter _ ?_)
  rw [turnsFrom_eq, List.pairwise_map]
  have hplaces := @List.pairwise_lt_range' 0 (List.replicate count rewritingGroup).length 1
    Nat.one_pos
  rw [← List.zipIdx_map_snd 0 (List.replicate count rewritingGroup)] at hplaces
  refine (List.pairwise_map.mp hplaces).imp_of_mem fun hturn hlater hlt => ?_
  have hsame : ∀ placed ∈ (List.replicate count rewritingGroup).zipIdx,
      placed.1 = rewritingGroup := by
    intro placed hplaced
    exact List.eq_of_mem_replicate (List.fst_mem_of_mem_zipIdx hplaced)
  rw [Turn.place, Turn.place, Prod.Lex.toLex_lt_toLex, hsame _ hturn, hsame _ hlater]
  exact .inr ⟨rfl, hlt⟩

lemma rewrites_rewriting (count : Nat) :
    ((List.replicate (count + 1) rewritingGroup).foldl (ReferenceFold.step lookup) {}).rewrites.length
        = count ∧
      ((List.replicate (count + 1) rewritingGroup).foldl (ReferenceFold.step lookup)
        {}).previousParentContext = some 10 := by
  induction count with
  | zero => exact ⟨rfl, rfl⟩
  | succ count ih =>
    rw [List.replicate_succ', List.foldl_append, List.foldl_cons, List.foldl_nil]
    obtain ⟨hlen, hparent⟩ := ih
    rw [step_spec]
    refine ⟨?_, rfl⟩
    dsimp only
    rw [List.length_append, hlen]
    unfold ReferenceFold.rewritten
    rw [hparent]
    rfl

lemma length_rewrites (count : Nat) :
    (referenceEfficiency lookup (List.replicate (count + 1) rewritingInput) none).2.length =
      count := by
  show (referenceFold lookup (List.replicate (count + 1) rewritingInput)).rewrites.length = _
  unfold referenceFold
  rw [ofInputs_rewriting, List.filter_eq_self.mpr, List.perm_replicate.mp (List.mergeSort_perm _ _)]
  · exact (rewrites_rewriting lookup count).1
  · intro group hgroup
    rw [List.eq_of_mem_replicate hgroup]
    rfl

lemma rewriteMarks_short {count : Nat} (h : MAX_REWRITE_MARKS < count) :
    (EfficiencyReducer.ofInputs lookup
        (List.replicate (count + 1) rewritingInput)).rewriteMarks.length <
      (referenceEfficiency lookup (List.replicate (count + 1) rewritingInput) none).2.length := by
  obtain ⟨-, hmarks, -, -⟩ := finish_agrees lookup (returnsInTime_rewriting (count + 1))
    (finishesInPlace_rewriting lookup (count + 1)) none
  rw [hmarks, List.length_take, length_rewrites, Nat.min_eq_left h.le]
  exact h

/-- The definition has a mark more than the reducer keeps. -/
theorem too_many_rewrites :
    let inputs := List.replicate (MAX_REWRITE_MARKS + 1 + 1) rewritingInput
    let lookup : String → Option String → Option Unit := fun _ _ => none
    ReturnsInTime inputs ∧ FinishesInPlace lookup inputs ∧
      (EfficiencyReducer.ofInputs lookup inputs).rewriteMarks ≠
        (referenceEfficiency lookup inputs none).2 :=
  ⟨returnsInTime_rewriting _, finishesInPlace_rewriting _ _,
    fun heq => absurd (congrArg List.length heq)
      (Nat.ne_of_lt (rewriteMarks_short _ (Nat.lt_succ_self _)))⟩

end Agreement

end Antiburn
