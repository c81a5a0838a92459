/-
The selector of one activation as a machine.

Its labels are the calls of the source's interface together with what they
return; the return of an application also says whether the observation was
taken up.  Beside the inversion lemma of a step, this file follows the three
readings of a state that the run invariants speak of: the identities of a
window, whether an identity is selected, and whether it is terminal.
-/
import Antiburn.AsciiPlatform
import Antiburn.Lib.Machine
import Antiburn.Lib.Window
import Antiburn.SelectionSteps

namespace Antiburn

/-- Greatest number of messages that a window holds. -/
def EffectiveActivation.windowCapacity (act : EffectiveActivation) : Nat :=
  min (act.compiled.trigger.window.getD .single).size MAX_WINDOW_MESSAGES

lemma windowCapacity_pos (act : EffectiveActivation) : 0 < act.windowCapacity :=
  Nat.lt_min.mpr ⟨RollingWindow.size_pos _, by decide⟩

namespace SelectionState

variable (s : SelectionState)

/-! ### Three readings of a state -/

def window (b : BranchId) : List String := (s.branch b).identities

/-- Whether the membership of an identity is `Selected`. -/
def selected (key : ResultKey) : Bool := (s.seen? key).any (·.membership == .selected)

/-- Whether a terminal observation or a removal of the identity was taken up. -/
def terminal (key : ResultKey) : Bool := (s.seen? key).any (·.terminalSeen)

lemma window_congr {s t : SelectionState} {b : BranchId}
    (h : (t.branch b).results = (s.branch b).results) : t.window b = s.window b := by
  rw [window, window, BranchSelection.identities, BranchSelection.identities, h]

@[simp] lemma window_noteDiagnostic (b b' : BranchId) (diagnostic : Option FilterDiagnostic) :
    (s.noteDiagnostic b diagnostic).window b' = s.window b' :=
  window_congr (by rw [branch_noteDiagnostic]; split_ifs with h <;> simp [h])

@[simp] lemma window_markCoverageGap (b b' : BranchId) :
    (s.markCoverageGap b).window b' = s.window b' :=
  window_congr (by rw [markCoverageGap, branch_updateBranch]; split_ifs with h <;> simp [h])

@[simp] lemma window_markIdentityLimit (b b' : BranchId) :
    (s.markIdentityLimit b).window b' = s.window b' :=
  window_congr (by rw [markIdentityLimit, branch_updateBranch]; split_ifs with h <;> simp [h])

@[simp] lemma window_setMembership (key : ResultKey) (membership : ResultMembership)
    (b : BranchId) : (s.setMembership key membership).window b = s.window b := rfl

@[simp] lemma window_recordSeen (key : ResultKey) (rev : Nat) (observation : Observation)
    (b : BranchId) : (s.recordSeen key rev observation).window b = s.window b := rfl

@[simp] lemma window_discardResult (b b' : BranchId) (identity : String) :
    (s.discardResult b identity).window b' =
      if b = b' then (s.window b').filter (· != identity) else s.window b' := by
  simp only [window, branch_discardResult]
  split_ifs with h
  · subst h
    simp only [BranchSelection.identities, List.filter_map]
    rfl
  · rfl

@[simp] lemma window_retireWindow (b b' : BranchId) :
    (s.retireWindow b).window b' = if b = b' then [] else s.window b' := by
  simp only [window, branch_retireWindow]
  split_ifs <;> rfl

lemma window_selectMessage (act : EffectiveActivation) (observation : Observation)
    (msg : Message) (b : BranchId) :
    (s.selectMessage act observation msg).window b =
      if observation.branch = b then
        FifoWindow.push act.windowCapacity (s.window b) msg.id
      else s.window b := by
  simp only [window, selectMessage, identities_pushResult, branch_noteDiagnostic, if_true]
  split_ifs with h
  · subst h; rfl
  · rfl

lemma window_replaceResult (b b' : BranchId) (identity : String) (observation : Observation)
    {msg : Message} (h : msg.id = identity) :
    (s.replaceResult b identity observation msg).window b' = s.window b' := by
  have hids : ∀ results : List SelectedMessage,
      (results.replaceF fun item => if item.message.id == identity then
        some { item with
          version := observation.version
          message := msg
          complete := observation.complete }
        else none).map (·.message.id) = results.map (·.message.id) := by
    intro results
    induction results with
    | nil => rfl
    | cons item rest ih =>
      rw [List.replaceF_cons]
      cases hitem : item.message.id == identity with
      | true =>
        rw [beq_iff_eq] at hitem
        simp only [if_true, List.map_cons, h, hitem]
      | false =>
        simp only [Bool.false_eq_true, if_false, List.map_cons]
        exact congrArg (item.message.id :: ·) ih
  simp only [window, replaceResult, BranchSelection.identities]
  rw [branch_modifyBranch _ _ _ rfl]
  split_ifs with hb
  · subst hb; exact hids _
  · rfl

lemma selected_iff (key : ResultKey) :
    s.selected key = true ↔ (s.seen? key).map (·.membership) = some .selected := by
  rw [selected]
  cases s.seen? key with
  | none | some => simp

/-! The changes that leave every record alone read the same. -/

@[simp] lemma selected_noteDiagnostic (b : BranchId) (diagnostic : Option FilterDiagnostic)
    (key : ResultKey) : (s.noteDiagnostic b diagnostic).selected key = s.selected key := rfl

@[simp] lemma selected_markCoverageGap (b : BranchId) (key : ResultKey) :
    (s.markCoverageGap b).selected key = s.selected key := rfl

@[simp] lemma selected_markIdentityLimit (b : BranchId) (key : ResultKey) :
    (s.markIdentityLimit b).selected key = s.selected key := rfl

@[simp] lemma selected_discardResult (b : BranchId) (identity : String) (key : ResultKey) :
    (s.discardResult b identity).selected key = s.selected key := rfl

@[simp] lemma selected_replaceResult (b : BranchId) (identity : String)
    (observation : Observation) (msg : Message) (key : ResultKey) :
    (s.replaceResult b identity observation msg).selected key = s.selected key := rfl

@[simp] lemma terminal_noteDiagnostic (b : BranchId) (diagnostic : Option FilterDiagnostic)
    (key : ResultKey) : (s.noteDiagnostic b diagnostic).terminal key = s.terminal key := rfl

@[simp] lemma terminal_markCoverageGap (b : BranchId) (key : ResultKey) :
    (s.markCoverageGap b).terminal key = s.terminal key := rfl

@[simp] lemma terminal_markIdentityLimit (b : BranchId) (key : ResultKey) :
    (s.markIdentityLimit b).terminal key = s.terminal key := rfl

@[simp] lemma terminal_discardResult (b : BranchId) (identity : String) (key : ResultKey) :
    (s.discardResult b identity).terminal key = s.terminal key := rfl

@[simp] lemma terminal_replaceResult (b : BranchId) (identity : String)
    (observation : Observation) (msg : Message) (key : ResultKey) :
    (s.replaceResult b identity observation msg).terminal key = s.terminal key := rfl

@[simp] lemma selected_setMembership (key key' : ResultKey) (membership : ResultMembership) :
    (s.setMembership key membership).selected key' =
      if key = key' then (s.seen? key').isSome && membership == .selected
      else s.selected key' := by
  simp only [selected, seen?_setMembership]
  split_ifs with h
  · subst h
    cases s.seen? key <;> rfl
  · rfl

@[simp] lemma terminal_setMembership (key key' : ResultKey) (membership : ResultMembership) :
    (s.setMembership key membership).terminal key' = s.terminal key' := by
  simp only [terminal, seen?_setMembership]
  split_ifs with h
  · subst h
    cases s.seen? key <;> rfl
  · rfl

@[simp] lemma selected_recordSeen (key key' : ResultKey) (rev : Nat)
    (observation : Observation) :
    (s.recordSeen key rev observation).selected key' = s.selected key' := by
  simp only [selected, seen?_recordSeen]
  split_ifs with h
  · subst h
    cases s.seen? key with
    | none => rfl
    | some seen =>
      simp only [Option.any_some, carriedMembership]
      split_ifs with hrem
      · rw [hrem]; rfl
      · rfl
  · rfl

@[simp] lemma terminal_recordSeen (key key' : ResultKey) (rev : Nat)
    (observation : Observation) :
    (s.recordSeen key rev observation).terminal key' =
      if key = key' then !observation.kind.isOther || s.terminal key' else s.terminal key' := by
  simp only [terminal, seen?_recordSeen]
  split_ifs with h
  · subst h; rfl
  · rfl

@[simp] lemma terminal_retireWindow (b : BranchId) (key : ResultKey) :
    (s.retireWindow b).terminal key = s.terminal key := by
  simp only [terminal, seen?_retireWindow]
  cases s.seen? key with
  | none => rfl
  | some seen =>
    simp only [Option.map_some, Option.any_some, SeenResult.retire]
    split_ifs <;> rfl

lemma selected_retireWindow (b : BranchId) (key : ResultKey) :
    (s.retireWindow b).selected key =
      if key.branch = b then s.selected key && !s.terminal key else s.selected key := by
  simp only [selected, terminal, seen?_retireWindow]
  cases s.seen? key with
  | none => split_ifs <;> rfl
  | some seen =>
    simp only [Option.map_some, Option.any_some, beq_iff_eq]
    split_ifs with h
    · obtain ⟨terminalSeen, rev, version, nativeOrder, membership⟩ := seen
      cases terminalSeen <;> cases membership <;> rfl
    · rfl

lemma selected_selectMessage (act : EffectiveActivation) (observation : Observation)
    (msg : Message) (key : ResultKey) :
    (s.selectMessage act observation msg).selected key =
      if key.branch = observation.branch ∧
        key.identity ∈ FifoWindow.evicted act.windowCapacity
          (s.window observation.branch) msg.id
      then false else s.selected key := by
  have hids : ((s.noteDiagnostic observation.branch none).branch observation.branch).identities =
      s.window observation.branch := window_noteDiagnostic s _ _ _
  simp only [selected, selectMessage, seen?_pushResult, seen?_noteDiagnostic, hids]
  by_cases h : key.branch = observation.branch ∧
      key.identity ∈ FifoWindow.evicted act.windowCapacity
        (s.window observation.branch) msg.id
  · rw [if_pos h]
    refine (congrArg _ (if_pos h)).trans ?_
    cases s.seen? key <;> rfl
  · rw [if_neg h]
    exact congrArg _ (if_neg h)

lemma isSome_selectMessage (act : EffectiveActivation) (observation : Observation)
    (msg : Message) (key : ResultKey) :
    ((s.selectMessage act observation msg).seen? key).isSome = (s.seen? key).isSome := by
  simp only [selectMessage, seen?_pushResult, seen?_noteDiagnostic]
  split_ifs
  · exact Option.isSome_map
  · rfl

@[simp] lemma terminal_selectMessage (act : EffectiveActivation)
    (observation : Observation) (msg : Message) (key : ResultKey) :
    (s.selectMessage act observation msg).terminal key = s.terminal key := by
  simp only [terminal, selectMessage, seen?_pushResult, seen?_noteDiagnostic]
  split_ifs
  · cases s.seen? key <;> rfl
  · rfl

/-! Both ways to start a new segment retire the window and set the coverage. -/

@[simp] lemma window_resetSegment (b b' : BranchId) :
    (s.resetSegment b).window b' = if b = b' then [] else s.window b' := by
  rw [resetSegment, window_markCoverageGap, window_retireWindow]

@[simp] lemma window_restoreCoverage (b b' : BranchId) :
    (s.restoreCoverage b).window b' = if b = b' then [] else s.window b' := by
  rw [← window_retireWindow]
  refine window_congr ?_
  rw [restoreCoverage, branch_updateBranch]
  split_ifs with h
  · rw [h]
  · rfl

lemma selected_resetSegment (b : BranchId) (key : ResultKey) :
    (s.resetSegment b).selected key =
      if key.branch = b then s.selected key && !s.terminal key else s.selected key :=
  s.selected_retireWindow b key

lemma selected_restoreCoverage (b : BranchId) (key : ResultKey) :
    (s.restoreCoverage b).selected key =
      if key.branch = b then s.selected key && !s.terminal key else s.selected key :=
  s.selected_retireWindow b key

@[simp] lemma terminal_resetSegment (b : BranchId) (key : ResultKey) :
    (s.resetSegment b).terminal key = s.terminal key := s.terminal_retireWindow b key

@[simp] lemma terminal_restoreCoverage (b : BranchId) (key : ResultKey) :
    (s.restoreCoverage b).terminal key = s.terminal key := s.terminal_retireWindow b key

/-! ### The machine -/

lemma seen?_recordRemoval (key key' : ResultKey) (rev : Nat) :
    (s.recordRemoval key rev).seen? key' =
      if key = key' then some (s.removedResult key rev) else s.seen? key' := by
  simp only [recordRemoval, seen?, Std.ExtTreeMap.lookup_insert]

@[simp] lemma branch_recordRemoval (key : ResultKey) (rev : Nat) (b : BranchId) :
    (s.recordRemoval key rev).branch b = s.branch b := rfl

@[simp] lemma window_recordRemoval (key : ResultKey) (rev : Nat) (b : BranchId) :
    (s.recordRemoval key rev).window b = s.window b := rfl

@[simp] lemma selected_recordRemoval (key key' : ResultKey) (rev : Nat) :
    (s.recordRemoval key rev).selected key' = (key != key' && s.selected key') := by
  simp only [selected, seen?_recordRemoval]
  by_cases h : key = key'
  · simp [h, removedResult]
  · simp [h]

@[simp] lemma terminal_recordRemoval (key key' : ResultKey) (rev : Nat) :
    (s.recordRemoval key rev).terminal key' = (key == key' || s.terminal key') := by
  simp only [terminal, seen?_recordRemoval]
  by_cases h : key = key'
  · simp [h, removedResult]
  · simp [h]

end SelectionState

/-- The calls of the selector's interface. -/
inductive SelectionOp where
  | apply (identity : String) (revision : Nat) (observation : Observation)
  | remove (branch : BranchId) (identity : String) (revision : Nat)
  | markGap (branch : BranchId)
  | reset (branch : BranchId)
  | restore (branch : BranchId)

inductive SelectionReturn where
  | applied (admission : SelectionState.Admission) (outcome : SelectionOutcome)
  | removed (changed : Bool)
  | done

/-- A call and its return. -/
abbrev SelectionLabel := SelectionOp × SelectionReturn

section Machine

variable [Platform]

def SelectionOp.run (act : EffectiveActivation) (s : SelectionState) :
    SelectionOp → Except (ApplyFault Empty) (SelectionReturn × SelectionState)
  | .apply identity revision observation => do
    let (outcome, t) ← s.applyPublished act identity revision observation
    return (.applied (s.admission ⟨observation.branch, identity⟩ revision observation.version)
      outcome, t)
  | .remove branch identity revision =>
    let (changed, t) := s.removeResult branch identity revision
    .ok (.removed changed, t)
  | .markGap branch => .ok (.done, s.markCoverageGap branch)
  | .reset branch => .ok (.done, s.resetSegment branch)
  | .restore branch => .ok (.done, s.restoreCoverage branch)

def selector (act : EffectiveActivation) : Machine SelectionState SelectionLabel where
  step s label t := label.1.run act s = .ok (label.2, t)

lemma selector_deterministic (act : EffectiveActivation) (s : SelectionState)
    (label : SelectionLabel) (t t' : SelectionState) (h : (selector act).step s label t)
    (h' : (selector act).step s label t') : t = t' := by
  have h : label.1.run act s = .ok (label.2, t) := h
  have h' : label.1.run act s = .ok (label.2, t') := h'
  rw [h] at h'
  injection h' with h'
  injection h'

def SelectionOp.runAll (act : EffectiveActivation) :
    SelectionState → List SelectionOp →
      Except (ApplyFault Empty) (List SelectionLabel × SelectionState)
  | s, [] => .ok ([], s)
  | s, op :: ops => do
    let (result, t) ← op.run act s
    let (labels, u) ← runAll act t ops
    return ((op, result) :: labels, u)

variable {act : EffectiveActivation} {s t : SelectionState}

lemma SelectionOp.run_of_runAll {ops : List SelectionOp}
    {u : SelectionState} {labels : List SelectionLabel}
    (h : SelectionOp.runAll act s ops = .ok (labels, u)) :
    (selector act).Run s labels u ∧ labels.map Prod.fst = ops := by
  induction ops generalizing s labels with
  | nil =>
    cases h
    exact ⟨.nil _, rfl⟩
  | cons op ops ih =>
    simp only [runAll, bind, Except.bind] at h
    split at h
    · cases h
    · rename_i first hfirst
      split at h
      · cases h
      · rename_i rest hrest
        obtain ⟨labels', u'⟩ := rest
        cases h
        obtain ⟨hrun, hops⟩ := ih hrest
        exact ⟨.cons hfirst hrun, by rw [List.map_cons, hops]⟩

lemma SelectionOp.exists_run {act : EffectiveActivation} {ops : List SelectionOp}
    {s : SelectionState} {p : List SelectionLabel × SelectionState → Bool}
    (h : (SelectionOp.runAll act s ops).toOption.any p = true) :
    ∃ labels t, (selector act).Run s labels t ∧ labels.map Prod.fst = ops ∧
      p (labels, t) = true := by
  cases hresult : SelectionOp.runAll act s ops with
  | error fault =>
    rw [hresult] at h
    cases h
  | ok result =>
    obtain ⟨labels, t⟩ := result
    rw [hresult] at h
    obtain ⟨hrun, hops⟩ := SelectionOp.run_of_runAll hresult
    exact ⟨labels, t, hrun, hops, h⟩

/-- Everything a call can do. -/
inductive SelectorCase (s : SelectionState) (activation : EffectiveActivation) :
    SelectionLabel → SelectionState → Prop
  | apply {identity : String} {revision : Nat} {observation : Observation}
      {admission : SelectionState.Admission} {outcome : SelectionOutcome} {t : SelectionState}
      (hadmission : admission =
        s.admission ⟨observation.branch, identity⟩ revision observation.version)
      (h : s.PublishedCase activation identity revision observation
        (.ok none : Capture Empty) admission outcome t) :
      SelectorCase s activation (.apply identity revision observation, .applied admission outcome) t
  | removeStale {branch : BranchId} {identity : String} {revision : Nat} :
      SelectorCase s activation (.remove branch identity revision, .removed false) s
  | removeLimit {branch : BranchId} {identity : String} {revision : Nat}
      (hunseen : s.seen? ⟨branch, identity⟩ = none)
      (hfull : MAX_SEEN_RESULTS_PER_BRANCH ≤ s.identityCount branch) :
      SelectorCase s activation (.remove branch identity revision, .removed true)
        ((s.markIdentityLimit branch).discardResult branch identity)
  | remove {branch : BranchId} {identity : String} {revision : Nat} :
      SelectorCase s activation (.remove branch identity revision, .removed true)
        ((s.recordRemoval ⟨branch, identity⟩ revision).discardResult branch identity)
  | markGap {branch : BranchId} :
      SelectorCase s activation (.markGap branch, .done) (s.markCoverageGap branch)
  | reset {branch : BranchId} :
      SelectorCase s activation (.reset branch, .done) (s.resetSegment branch)
  | restore {branch : BranchId} :
      SelectorCase s activation (.restore branch, .done) (s.restoreCoverage branch)

lemma SelectionState.removeResult_cases (s : SelectionState) (act : EffectiveActivation)
    (branch : BranchId) (identity : String) (rev : Nat) :
    SelectorCase s act
      (.remove branch identity rev, .removed (s.removeResult branch identity rev).1)
      (s.removeResult branch identity rev).2 := by
  unfold SelectionState.removeResult
  dsimp only
  by_cases hstale : s.removalStale ⟨branch, identity⟩ rev = true
  · rw [if_pos hstale]
    exact .removeStale
  · rw [if_neg hstale]
    split_ifs with hfull
    · simp only [Bool.and_eq_true, Option.isNone_iff_eq_none, decide_eq_true_eq] at hfull
      exact .removeLimit hfull.1 hfull.2
    · exact .remove

variable {observation : Observation} {label : SelectionLabel}

lemma selector_cases
    (h : (selector act).step s label t) :
    SelectorCase s act label t := by
  obtain ⟨op, result⟩ := label
  cases op with
  | apply identity rev observation =>
    have h : SelectionOp.run act s (.apply identity rev observation) =
      .ok (result, t) := h
    unfold SelectionOp.run at h
    simp only [bind, Except.bind] at h
    split at h
    · cases h
    · rename_i applied happl
      obtain ⟨outcome, t'⟩ := applied
      cases h
      exact .apply rfl (SelectionState.applyPublished_cases happl)
  | remove branch identity rev =>
    have h : Except.ok (.removed (s.removeResult branch identity rev).1,
      (s.removeResult branch identity rev).2) = Except.ok (result, t) := h
    cases h
    exact s.removeResult_cases act branch identity rev
  | markGap branch => cases h; exact .markGap
  | reset branch => cases h; exact .reset
  | restore branch => cases h; exact .restore

/-! ### No call fails -/

lemma message?_of_filters
    (hfamily : act.compiled.trigger.family.isMessages = true)
    (h : evaluateEventFilters act.compiled observation = .ok true) :
    observation.kind.message?.isSome = true := by
  unfold evaluateEventFilters at h
  cases hf : act.compiled.trigger.family with
  | messages toolResult userMessage assistantMessage toolCall =>
    cases hkind : observation.kind with
    | userMessage | assistantMessage | toolCall | toolResult => rfl
    | turnEnd | sessionStart | sessionIdle | other => simp [hf, hkind] at h
  | responseCycle | session => rw [hf] at hfamily; cases hfamily

omit [Platform] in
lemma captures_none {ε : Type} (demand : CurrentInventoryDemand) (context : FrozenContext) :
    captureForCondition demand (.ok none : Capture ε) context = .ok context ∧
      captureForCandidate demand (.ok none : Capture ε) context = .ok context := by
  unfold captureForCondition captureForCandidate
  constructor <;> split_ifs <;> rfl

lemma SelectionState.correctionMatches_isOk (act : EffectiveActivation) (observation : Observation)
    (filtersMatch coverageComplete : Bool) :
    ∃ result, correctionMatches act observation filtersMatch coverageComplete
      (.ok none : Capture Empty) = .ok result ∧ (result = true → filtersMatch = true) := by
  unfold correctionMatches
  split
  · rw [(captures_none _ _).1]
    exact ⟨_, rfl, fun _ => rfl⟩
  · exact ⟨false, rfl, fun h => by cases h⟩

lemma SelectionState.applyCorrection_isOk
    (hfamily : act.compiled.trigger.family.isMessages = true) (s : SelectionState)
    (key : ResultKey) (prev : SeenResult) (observation : Observation) :
    ∃ result, s.applyCorrection act key prev observation (.ok none : Capture Empty) =
      .ok result := by
  unfold applyCorrection
  split
  · exact ⟨_, rfl⟩
  · exact ⟨_, rfl⟩
  · exact ⟨_, rfl⟩
  · have hmatc := correctionMatches_isOk act observation
    simp only [bind, Except.bind]
    split
    · rename_i herror
      obtain ⟨matched, hmat, _⟩ := hmatc _ _
      rw [hmat] at herror
      cases herror
    · rename_i matched hmat
      split
      · exact ⟨_, rfl⟩
      · rename_i hmatch
        split
        · exact ⟨_, rfl⟩
        · split
          · exact ⟨_, rfl⟩
          · split
            · -- filters pass, and a msg act has filters for messages only
              rename_i hnone
              obtain ⟨matched', hmat', hpassed⟩ := hmatc _ _
              rw [hmat] at hmat'
              cases hmat'
              have hpassed := hpassed (by simpa using hmatch)
              split at hpassed
              · rename_i hfilters
                have hsome := message?_of_filters hfamily hfilters
                rw [hnone] at hsome
                cases hsome
              · cases hpassed
            · exact ⟨_, rfl⟩

lemma SelectionState.applyWithInventories_isOk (act : EffectiveActivation)
    (s : SelectionState) (observation : Observation) :
    ∃ result, s.applyWithInventories act observation (.ok none : Capture Empty) =
      .ok result := by
  unfold applyWithInventories
  dsimp only
  split
  · exact ⟨_, rfl⟩
  · split
    · exact ⟨_, rfl⟩
    · exact ⟨_, rfl⟩
    · split
      · exact ⟨_, rfl⟩
      · simp only [(captures_none _ _).1, (captures_none _ _).2, bind, Except.bind]
        split
        · exact ⟨_, rfl⟩
        · split
          · exact ⟨_, rfl⟩
          · split <;> exact ⟨_, rfl⟩

/-- **No call fails**: with no inventories to capture, nothing panics. -/
lemma selector_total (act : EffectiveActivation) (s : SelectionState)
    (op : SelectionOp) : ∃ result t, (selector act).step s (op, result) t := by
  cases op with
  | apply identity rev observation =>
    have happly : ∃ result, s.applyPublished act identity rev observation =
        .ok result := by
      unfold SelectionState.applyPublished SelectionState.applyPublishedWithInventories
      dsimp only
      split
      · exact ⟨_, rfl⟩
      · exact ⟨_, rfl⟩
      · split
        · exact ⟨_, rfl⟩
        · split
          · split
            · exact ⟨_, rfl⟩
            · obtain ⟨result, hresult⟩ := SelectionState.applyWithInventories_isOk act
                (s.recordSeen ⟨observation.branch, identity⟩ rev observation) observation
              simp only [hresult, bind, Except.bind]
              exact ⟨_, rfl⟩
          · split
            · rename_i hfamily
              exact SelectionState.applyCorrection_isOk hfamily _ _ _ _
            · exact ⟨_, rfl⟩
    obtain ⟨⟨outcome, t⟩, happly⟩ := happly
    refine ⟨.applied (s.admission ⟨observation.branch, identity⟩ rev observation.version)
      outcome, t, ?_⟩
    show SelectionOp.run act s (.apply identity rev observation) = .ok (_, t)
    unfold SelectionOp.run
    simp only [happly, bind, Except.bind]
    rfl
  | remove | markGap | reset | restore => exact ⟨_, _, rfl⟩

/-! ### Terminal records -/

lemma SelectorCase.terminal_mono
    (h : SelectorCase s act label t) {key : ResultKey}
    (hkey : s.terminal key = true) : t.terminal key = true := by
  cases h with
  | apply _ happly =>
    cases happly with
    | refused => exact hkey
    | limit _ _ => simpa using hkey
    | historical | pending => simp [hkey]
    | first _ _ _ happly =>
      cases happly with
      | rejected _ _ hstate =>
        rcases hstate with rfl | ⟨diagnostic, rfl⟩ <;> simp [hkey]
      | event | collected | window => simp [hkey]
    | repeated _ _ _ => simp [hkey]
    | correction _ _ hcorr =>
      cases hcorr <;> simp [hkey]
  | removeStale => exact hkey
  | removeLimit _ _ => simpa using hkey
  | remove => simp [hkey]
  | markGap | reset | restore => simpa using hkey

lemma SelectionState.PublishedCase.terminal_of_accepted {ε : Type} {capture : Capture ε}
    {identity : String}
    {rev : Nat} {outcome : SelectionOutcome}
    (h : s.PublishedCase act identity rev observation capture .accepted outcome t)
    (hterm : observation.kind.isOther = false) :
    t.terminal ⟨observation.branch, identity⟩ = true := by
  cases h with
  | historical _ _ => simp [hterm]
  | pending hother _ => rw [hterm] at hother; cases hother
  | first _ _ _ happly =>
    cases happly with
    | rejected _ _ hstate =>
      rcases hstate with rfl | ⟨diagnostic, rfl⟩ <;> simp [hterm]
    | event | collected | window => simp [hterm]
  | repeated _ _ _ => simp [hterm]
  | correction _ _ hcorr => cases hcorr <;> simp [hterm]

/-! ### A message activation to run -/

/-- Selects user messages, with a window of `size` messages. -/
def userMessageActivation (size : Nat) (hpos : 0 < size) (hle : size ≤ MAX_WINDOW_SIZE) :
    EffectiveActivation where
  id := ⟨⟨"local", "/work", .live⟩, "check", 1⟩
  bootstrapObservationPosition := 0
  bootstrapPublication := 0
  compiled :=
    { name := "check"
      description := none
      condition := none
      trigger :=
        { family := .messages false (some {}) none none
          tools := none
          statuses := none
          models := none
          fastMode := none
          paths := none
          pathsIgnore := none
          window := some ⟨size, 1, Nat.one_pos, hpos, hle⟩
          cooldown := 0 }
      decisions := []
      actions := [] }

/-- An observation on the branch `main`, after the activation boundary. -/
def mainObservation (kind : ObservationKind) (position : Nat) : Observation where
  branch := "main"
  nativeOrder := toString position
  firstTerminalPublication := none
  firstEligiblePublication := some position
  version := s!"v{position}"
  kind := kind
  context := ⟨.object [("session", .object [])], []⟩
  complete := true
  position := position

def userMessage (id : String) : ObservationKind := .userMessage ⟨id, .object []⟩

end Machine

end Antiburn
