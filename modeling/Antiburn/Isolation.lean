/-
Branch isolation of selection.

`onBranch b` cuts a selector state down to the entries of one branch.  A call
that mentions `b` commutes with the cut, a call for another branch disappears
under it, and so the cut of a run is the run of the calls that mention `b`.
-/
import Antiburn.Selector
import Mathlib

namespace Antiburn

namespace SelectionState

def onBranch (s : SelectionState) (b : BranchId) : SelectionState where
  branches := s.branches.filter fun branch _ => branch == b
  seenResults := s.seenResults.filter fun key _ => key.branch == b

section Cut

variable (s : SelectionState) (b : BranchId)

/-! ### Readings through the cut -/

@[simp] lemma onBranch_empty : ({} : SelectionState).onBranch b = {} := rfl

lemma seen?_onBranch (key : ResultKey) :
    (s.onBranch b).seen? key = if key.branch = b then s.seen? key else none := by
  simp only [onBranch, seen?]
  rw [Std.ExtTreeMap.lookup_filterKeys (fun key : ResultKey => key.branch == b)]
  simp only [beq_iff_eq]

@[simp] lemma seen?_onBranch_self (identity : String) :
    (s.onBranch b).seen? ⟨b, identity⟩ = s.seen? ⟨b, identity⟩ := by
  rw [seen?_onBranch, if_pos rfl]

lemma branches_onBranch (b' : BranchId) :
    (s.onBranch b).branches[b']? = if b' = b then s.branches[b']? else none := by
  simp only [onBranch]
  rw [Std.ExtTreeMap.lookup_filterKeys (fun branch : BranchId => branch == b)]
  simp only [beq_iff_eq]

@[simp] lemma branch_onBranch_self : (s.onBranch b).branch b = s.branch b := by
  rw [branch, branches_onBranch, if_pos rfl, branch]

@[simp] lemma identityCount_onBranch_self :
    (s.onBranch b).identityCount b = s.identityCount b :=
  Std.ExtTreeMap.countKeys_filterKeys (fun key : ResultKey => key.branch == b)

/-! ### Changes through the cut -/

/-- A record of a filtered map changes where the filter keeps the key. -/
lemma ite_of_filter {α β : Type} {p : Bool} {P : Prop} [Decidable P] {map kept same : α}
    (hiff : p = true ↔ P) (h : map = if p then kept else same) (f : α → β) :
    f map = if P then f kept else f same := by
  rw [h, apply_ite f]
  exact if_congr hiff rfl rfl

@[simp] lemma onBranch_updateBranch (b' : BranchId) (f : BranchSelection → BranchSelection) :
    (s.updateBranch b' f).onBranch b =
      if b' = b then (s.onBranch b).updateBranch b' f else s.onBranch b := by
  have hinsert := Std.ExtTreeMap.filterKeys_insert (m := s.branches)
    (fun branch : BranchId => branch == b) b' (f (s.branch b'))
  simp only [beq_iff_eq] at hinsert
  by_cases h : b' = b
  · subst h
    rw [if_pos rfl] at hinsert ⊢
    simp only [updateBranch, branch_onBranch_self]
    simp only [onBranch, hinsert]
  · rw [if_neg h] at hinsert ⊢
    simp only [onBranch, updateBranch, hinsert]

@[simp] lemma onBranch_modifyBranch (b' : BranchId) (f : BranchSelection → BranchSelection) :
    (s.modifyBranch b' f).onBranch b =
      if b' = b then (s.onBranch b).modifyBranch b' f else s.onBranch b :=
  ite_of_filter beq_iff_eq (Std.ExtTreeMap.filterKeys_modify (m := s.branches)
    (fun branch : BranchId => branch == b) b' f) fun branches => { s.onBranch b with branches }

@[simp] lemma onBranch_setMembership (key : ResultKey) (membership : ResultMembership) :
    (s.setMembership key membership).onBranch b =
      if key.branch = b then (s.onBranch b).setMembership key membership else s.onBranch b :=
  ite_of_filter beq_iff_eq (Std.ExtTreeMap.filterKeys_modify (m := s.seenResults)
      (fun key : ResultKey => key.branch == b) key fun seen => { seen with membership })
    fun seenResults => { s.onBranch b with seenResults }

lemma onBranch_insertSeen (key : ResultKey) (seen : SeenResult) :
    ({ s with seenResults := s.seenResults.insert key seen } : SelectionState).onBranch b =
      if key.branch = b then
        { s.onBranch b with seenResults := (s.onBranch b).seenResults.insert key seen }
      else s.onBranch b :=
  ite_of_filter beq_iff_eq (Std.ExtTreeMap.filterKeys_insert (m := s.seenResults)
      (fun key : ResultKey => key.branch == b) key seen)
    fun seenResults => { s.onBranch b with seenResults }

@[simp] lemma onBranch_recordSeen (key : ResultKey) (revision : Nat) (observation : Observation) :
    (s.recordSeen key revision observation).onBranch b =
      if key.branch = b then (s.onBranch b).recordSeen key revision observation
      else s.onBranch b := by
  rw [recordSeen, onBranch_insertSeen]
  by_cases h : key.branch = b
  · rw [if_pos h, if_pos h, recordSeen, seen?_onBranch, if_pos h]
  · rw [if_neg h, if_neg h]

@[simp] lemma onBranch_recordRemoval (key : ResultKey) (revision : Nat) :
    (s.recordRemoval key revision).onBranch b =
      if key.branch = b then (s.onBranch b).recordRemoval key revision else s.onBranch b := by
  rw [recordRemoval, onBranch_insertSeen]
  by_cases h : key.branch = b
  · rw [if_pos h, if_pos h, recordRemoval, removedResult, removedResult, seen?_onBranch, if_pos h]
  · rw [if_neg h, if_neg h]

@[simp] lemma onBranch_noteDiagnostic (b' : BranchId) (diagnostic : Option FilterDiagnostic) :
    (s.noteDiagnostic b' diagnostic).onBranch b =
      if b' = b then (s.onBranch b).noteDiagnostic b' diagnostic else s.onBranch b :=
  onBranch_updateBranch s b b' _

@[simp] lemma onBranch_markIdentityLimit (b' : BranchId) :
    (s.markIdentityLimit b').onBranch b =
      if b' = b then (s.onBranch b).markIdentityLimit b' else s.onBranch b :=
  onBranch_updateBranch s b b' _

@[simp] lemma onBranch_markCoverageGap (b' : BranchId) :
    (s.markCoverageGap b').onBranch b =
      if b' = b then (s.onBranch b).markCoverageGap b' else s.onBranch b :=
  onBranch_updateBranch s b b' _

@[simp] lemma onBranch_discardResult (b' : BranchId) (identity : String) :
    (s.discardResult b' identity).onBranch b =
      if b' = b then (s.onBranch b).discardResult b' identity else s.onBranch b :=
  onBranch_modifyBranch s b b' _

@[simp] lemma onBranch_replaceResult (b' : BranchId) (identity : String)
    (observation : Observation) (msg : Message) :
    (s.replaceResult b' identity observation msg).onBranch b =
      if b' = b then (s.onBranch b).replaceResult b' identity observation msg
      else s.onBranch b :=
  onBranch_modifyBranch s b b' _

@[simp] lemma onBranch_retireWindow (b' : BranchId) :
    (s.retireWindow b').onBranch b =
      if b' = b then (s.onBranch b).retireWindow b' else s.onBranch b := by
  have hbrs : (s.modifyBranch b' fun selection => { selection with results := [] }).onBranch b =
      if b' = b then (s.onBranch b).modifyBranch b' fun selection => { selection with results := [] }
      else s.onBranch b := onBranch_modifyBranch s b b' _
  have hmap := Std.ExtTreeMap.filterKeys_map (m := s.seenResults)
    (fun key : ResultKey => key.branch == b)
    (fun key seen => if key.branch == b' then SeenResult.retire seen else seen)
  by_cases h : b' = b
  · rw [if_pos h] at hbrs ⊢
    simp only [onBranch, modifyBranch] at hbrs
    injection hbrs with hbrs
    simp only [onBranch, retireWindow, modifyBranch, hmap, hbrs]
  · rw [if_neg h] at hbrs ⊢
    simp only [onBranch, modifyBranch] at hbrs
    injection hbrs with hbrs
    simp only [onBranch, retireWindow, modifyBranch, hmap, hbrs]
    refine congrArg (SelectionState.mk _) (Std.ExtTreeMap.ext_getElem? fun key => ?_)
    -- a key that survives the cut lies on `b`, so the scan of `b'` leaves it
    rw [Std.ExtTreeMap.lookup_map,
      Std.ExtTreeMap.lookup_filterKeys (fun key : ResultKey => key.branch == b)]
    by_cases hkey : key.branch = b
    · have hne : (key.branch == b') = false := by
        rw [beq_eq_false_iff_ne, hkey]
        exact fun h' => h h'.symm
      simp only [hne, Bool.false_eq_true, if_false, Option.map_id']
    · have hne : (key.branch == b) = false := beq_eq_false_iff_ne.mpr hkey
      simp only [hne, Bool.false_eq_true, if_false, Option.map_none]

@[simp] lemma onBranch_resetSegment (b' : BranchId) :
    (s.resetSegment b').onBranch b =
      if b' = b then (s.onBranch b).resetSegment b' else s.onBranch b := by
  rw [resetSegment, onBranch_markCoverageGap, onBranch_retireWindow]
  split_ifs <;> rfl

@[simp] lemma onBranch_restoreCoverage (b' : BranchId) :
    (s.restoreCoverage b').onBranch b =
      if b' = b then (s.onBranch b).restoreCoverage b' else s.onBranch b := by
  rw [restoreCoverage, onBranch_updateBranch, onBranch_retireWindow]
  split_ifs <;> rfl

@[simp] lemma onBranch_pushResult (b' : BranchId) (size : Nat) (item : SelectedMessage) :
    (s.pushResult b' size item).onBranch b =
      if b' = b then (s.onBranch b).pushResult b' size item else s.onBranch b := by
  have hfold : ∀ (evicted : List SelectedMessage) (t : SelectionState),
      (evicted.foldl (fun t old => t.setMembership ⟨b', old.message.id⟩ .retired) t).onBranch b =
        if b' = b then
          evicted.foldl (fun t old => t.setMembership ⟨b', old.message.id⟩ .retired) (t.onBranch b)
        else t.onBranch b := by
    intro evicted
    induction evicted with
    | nil => intro t; rw [List.foldl_nil, List.foldl_nil, ite_self]
    | cons old rest ih =>
      intro t
      rw [List.foldl_cons, ih, onBranch_setMembership]
      split_ifs <;> rfl
  simp only [pushResult, hfold, onBranch_updateBranch]
  split_ifs with h
  · subst h
    rw [branch_onBranch_self]
  · rfl

end Cut

/-! ### Calls through the cut -/

section Calls

variable [Platform] {ε : Type} (s : SelectionState) (act : EffectiveActivation)
  (observation : Observation) (capture : Capture ε)

def cutResult {α : Type} (b : BranchId) (result : Except (ApplyFault ε) (α × SelectionState)) :
    Except (ApplyFault ε) (α × SelectionState) :=
  result.map fun result => (result.1, result.2.onBranch b)

lemma applyWithInventories_onBranch :
    (s.onBranch observation.branch).applyWithInventories act observation capture =
      cutResult observation.branch (s.applyWithInventories act observation capture) := by
  unfold applyWithInventories
  dsimp only
  split_ifs with hearly
  · rfl
  cases hfilters : evaluateEventFilters act.compiled observation with
  | error diagnostic => simp [cutResult, Except.map]
  | ok matched =>
    cases matched with
    | false => rfl
    | true =>
      -- from here on both sides read the same window, coverage and captures
      have hnote : (s.onBranch observation.branch).noteDiagnostic observation.branch none =
          (s.noteDiagnostic observation.branch none).onBranch observation.branch := by simp
      simp only [hnote, branch_onBranch_self]
      generalize s.noteDiagnostic observation.branch none = s
      cases htrigger : triggerContext observation
          (s.branch observation.branch).coverageComplete with
      | none => rfl
      | some ctx =>
        simp only [bind, Except.bind]
        cases captureForCondition act.compiled.currentInventoryDemand capture ctx with
        | error fault => rfl
        | ok ctx =>
          dsimp only
          split_ifs with hcond
          · rfl
          cases hmsg : observation.kind.message? with
          | none =>
            dsimp only
            cases captureForCandidate act.compiled.currentInventoryDemand capture ctx with
            | error | ok => rfl
          | some msg =>
            have hpush : (s.onBranch observation.branch).pushResult observation.branch
                (min (act.compiled.trigger.window.getD .single).size MAX_WINDOW_MESSAGES)
                ⟨observation.version, observation.nativeOrder, msg, observation.complete⟩ =
                (s.pushResult observation.branch
                  (min (act.compiled.trigger.window.getD .single).size MAX_WINDOW_MESSAGES)
                  ⟨observation.version, observation.nativeOrder, msg,
                    observation.complete⟩).onBranch observation.branch := by simp
            simp only [hpush, branch_onBranch_self]
            split_ifs with hminimum
            · rfl
            · cases captureForCandidate act.compiled.currentInventoryDemand capture
                  ctx with
              | error fault => rfl
              | ok ctx => rfl

lemma applyCorrection_onBranch (identity : String) (prev : SeenResult) :
    (s.onBranch observation.branch).applyCorrection act ⟨observation.branch, identity⟩
        prev observation capture =
      cutResult observation.branch (s.applyCorrection act ⟨observation.branch, identity⟩
        prev observation capture) := by
  unfold applyCorrection
  split
  · rfl
  · rfl
  · rfl
  · simp only [branch_onBranch_self, bind, Except.bind]
    split
    · rfl
    · have hnote : ∀ diagnostic, (s.onBranch observation.branch).noteDiagnostic
          observation.branch diagnostic =
          (s.noteDiagnostic observation.branch diagnostic).onBranch observation.branch := by simp
      simp only [hnote]
      generalize s.noteDiagnostic observation.branch _ = s
      split_ifs
      · simp [cutResult, Except.map, pure, Except.pure]
      · simp [cutResult, Except.map, pure, Except.pure]
      · simp [cutResult, Except.map, pure, Except.pure]
      · split
        · rfl
        · simp [cutResult, Except.map, pure, Except.pure]

omit [Platform] in
lemma acceptsUpdate_onBranch (b : BranchId) (identity : String) (revision : Nat)
    (version : EvidenceVersion) :
    (s.onBranch b).acceptsUpdate ⟨b, identity⟩ revision version =
      s.acceptsUpdate ⟨b, identity⟩ revision version := by
  unfold acceptsUpdate
  rw [seen?_onBranch_self]

omit [Platform] in
lemma admission_onBranch (b : BranchId) (identity : String) (revision : Nat)
    (version : EvidenceVersion) :
    (s.onBranch b).admission ⟨b, identity⟩ revision version =
      s.admission ⟨b, identity⟩ revision version := by
  simp only [admission, acceptsUpdate_onBranch, seen?_onBranch_self, branch_onBranch_self,
    identityCount_onBranch_self]

omit [Platform] in
lemma removeResult_onBranch (b : BranchId) (identity : String) (revision : Nat) :
    (s.onBranch b).removeResult b identity revision =
      ((s.removeResult b identity revision).1,
        (s.removeResult b identity revision).2.onBranch b) := by
  have hstale : (s.onBranch b).removalStale ⟨b, identity⟩ revision =
      s.removalStale ⟨b, identity⟩ revision := by
    unfold removalStale
    rw [seen?_onBranch_self]
  simp only [removeResult, hstale, seen?_onBranch_self, identityCount_onBranch_self]
  by_cases h : s.removalStale ⟨b, identity⟩ revision = true
  · rw [if_pos h, if_pos h]
  rw [if_neg h, if_neg h]
  by_cases hfull : ((s.seen? ⟨b, identity⟩).isNone &&
      decide (s.identityCount b ≥ MAX_SEEN_RESULTS_PER_BRANCH)) = true
  · rw [if_pos hfull, if_pos hfull]
    simp
  · rw [if_neg hfull, if_neg hfull]
    simp

/-- **A publication on a branch reads and writes that branch only.** -/
lemma applyPublishedWithInventories_onBranch (identity : String) (revision : Nat) :
    (s.onBranch observation.branch).applyPublishedWithInventories act identity revision
        observation capture =
      cutResult observation.branch (s.applyPublishedWithInventories act identity revision
        observation capture) := by
  unfold applyPublishedWithInventories
  simp only [admission_onBranch]
  split
  · rfl
  · simp [cutResult, Except.map]
  · have hrecord : (s.onBranch observation.branch).recordSeen ⟨observation.branch, identity⟩
        revision observation =
        (s.recordSeen ⟨observation.branch, identity⟩ revision observation).onBranch
          observation.branch := by simp
    simp only [seen?_onBranch_self, hrecord]
    generalize s.recordSeen ⟨observation.branch, identity⟩ revision observation = t
    by_cases hhistl : (!observation.kind.isOther && isHistorical act observation) = true
    · rw [if_pos hhistl, if_pos hhistl]
      simp [cutResult, Except.map]
    rw [if_neg hhistl, if_neg hhistl]
    cases (s.seen? ⟨observation.branch, identity⟩).filter (·.terminalSeen) with
    | none =>
      dsimp only
      split_ifs
      · rfl
      · rw [applyWithInventories_onBranch]
        cases t.applyWithInventories act observation capture with
        | error fault => rfl
        | ok result => simp [cutResult, Except.map, bind, Except.bind, pure, Except.pure]
    | some prev =>
      dsimp only
      split_ifs
      · exact t.applyCorrection_onBranch act observation capture identity _
      · simp [cutResult, Except.map]

end Calls

section Foreign

variable [Platform] {ε : Type}

lemma onBranch_of_publishedCase {act : EffectiveActivation} {identity : String}
    {revision : Nat} {observation : Observation} {capture : Capture ε} {admission : Admission}
    {outcome : SelectionOutcome} {s t : SelectionState} {b : BranchId}
    (h : s.PublishedCase act identity revision observation capture admission outcome t)
    (hb : observation.branch ≠ b) : t.onBranch b = s.onBranch b := by
  cases h with
  | refused => rfl
  | limit => rw [onBranch_markIdentityLimit, if_neg hb]
  | historical | pending => simp [hb]
  | first _ _ _ happly =>
    rw [onBranch_setMembership, if_neg hb]
    cases happly with
    | rejected _ _ hstate =>
      rcases hstate with rfl | ⟨diagnostic, rfl⟩
      · simp [hb]
      · simp [hb]
    | event => simp [hb]
    | collected | window => simp [hb, selectMessage]
  | repeated => simp [hb]
  | correction _ _ hcorr =>
    cases hcorr with
    | settled | excluded | unknown | invalidated | replaced => simp [hb]

end Foreign

/-! ### The scan of a branch -/

/-- What the source visits for a branch: from the least key of the branch on, up
to the first key of another one. -/
def branchScan (s : SelectionState) (b : BranchId) : List (ResultKey × SeenResult) :=
  (s.seenResults.toList.dropWhile fun entry => (compare entry.1 ⟨b, ""⟩).isLT).takeWhile
    fun entry => entry.1.branch == b

end SelectionState

/-! ### Runs -/

def SelectionOp.branch : SelectionOp → BranchId
  | .apply _ _ observation => observation.branch
  | .remove branch _ _ => branch
  | .markGap branch => branch
  | .reset branch => branch
  | .restore branch => branch

section Runs

variable [Platform] {act : EffectiveActivation} {s t : SelectionState} {b : BranchId}

lemma SelectionOp.run_onBranch {op : SelectionOp} {result : SelectionReturn}
    (h : op.run act s = .ok (result, t)) :
    op.run act (s.onBranch op.branch) = .ok (result, t.onBranch op.branch) := by
  cases op with
  | apply identity revision observation =>
    simp only [run, bind, Except.bind] at h ⊢
    have hcut := s.applyPublishedWithInventories_onBranch act observation
      (.ok none : Capture Empty) identity revision
    split at h
    · cases h
    · rename_i applied happl
      cases h
      have happl : s.applyPublishedWithInventories act identity revision observation
        (.ok none : Capture Empty) = .ok applied := happl
      rw [happl] at hcut
      have hcut : (s.onBranch observation.branch).applyPublished act identity revision
        observation = .ok (applied.1, applied.2.onBranch observation.branch) := hcut
      simp only [SelectionOp.branch, hcut, SelectionState.admission_onBranch]
      rfl
  | remove branch identity revision =>
    have h : Except.ok (SelectionReturn.removed (s.removeResult branch identity revision).1,
      (s.removeResult branch identity revision).2) = Except.ok (result, t) := h
    injection h with h
    injection h with hresult hstate
    simp only [run, SelectionOp.branch, SelectionState.removeResult_onBranch, hresult, hstate]
  | markGap branch | reset branch | restore branch =>
    cases h
    simp [run, SelectionOp.branch]

lemma SelectionOp.onBranch_of_ne {label : SelectionLabel}
    (h : (selector act).step s label t) (hb : label.1.branch ≠ b) :
    t.onBranch b = s.onBranch b := by
  cases selector_cases h with
  | apply _ hpub => exact SelectionState.onBranch_of_publishedCase hpub hb
  | removeStale => rfl
  | removeLimit =>
    have hb : ¬ _ = b := hb
    simp only [SelectionOp.branch] at hb
    simp [hb]
  | remove | markGap | reset | restore =>
    simp only [SelectionOp.branch] at hb
    simp [hb]

lemma SelectionOp.runAll_onBranch (act : EffectiveActivation) (b : BranchId)
    (ops : List SelectionOp) (s : SelectionState) :
    ∃ labels t, SelectionOp.runAll act s ops = .ok (labels, t) ∧
      SelectionOp.runAll act (s.onBranch b) (ops.filter fun op => op.branch == b) =
        .ok (labels.filter fun label => label.1.branch == b, t.onBranch b) := by
  induction ops generalizing s with
  | nil => exact ⟨[], s, rfl, rfl⟩
  | cons op ops ih =>
    obtain ⟨result, next, hstep⟩ := selector_total act s op
    obtain ⟨labels, t, hrun, hcut⟩ := ih next
    have hop : op.run act s = .ok (result, next) := hstep
    refine ⟨(op, result) :: labels, t, ?_, ?_⟩
    · simp only [runAll, hop, bind, Except.bind, hrun]
      rfl
    by_cases hb : op.branch = b
    · subst hb
      have hfirst := SelectionOp.run_onBranch hop
      rw [List.filter_cons_of_pos (by simp), List.filter_cons_of_pos (by simp)]
      simp only [runAll, hfirst, bind, Except.bind, hcut]
      rfl
    · have hsame := SelectionOp.onBranch_of_ne hstep hb
      rw [List.filter_cons_of_neg (by simpa using hb), List.filter_cons_of_neg (by simpa using hb),
        ← hsame]
      exact hcut

end Runs

end Antiburn
