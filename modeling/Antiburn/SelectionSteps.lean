/-
What each selector operation does to a branch and to an identity.

The lookups through the small state changes come first, as simp lemmas.  Then
one inversion lemma for each function of `Selection` lists everything a call
can do; the invariants of whole runs are derived from these lists and never
unfold the functions again.
-/
import Antiburn.Selection

namespace Antiburn

namespace SelectionState

variable (s : SelectionState)

/-! ### Lookups through state changes -/

@[simp] lemma branch_updateBranch (b b' : BranchId) (f : BranchSelection → BranchSelection) :
    (s.updateBranch b f).branch b' = if b = b' then f (s.branch b) else s.branch b' := by
  simp only [updateBranch, branch, Std.ExtTreeMap.lookup_insert]
  split_ifs <;> rfl

@[simp] lemma seen?_updateBranch (b : BranchId) (f : BranchSelection → BranchSelection)
    (key : ResultKey) : (s.updateBranch b f).seen? key = s.seen? key := rfl

lemma branch_modifyBranch (b b' : BranchId) {f : BranchSelection → BranchSelection}
    (hf : f {} = {}) :
    (s.modifyBranch b f).branch b' = if b = b' then f (s.branch b) else s.branch b' := by
  simp only [modifyBranch, branch, Std.ExtTreeMap.lookup_modify]
  split_ifs with h
  · subst h
    cases s.branches[b]? with
    | none => exact hf.symm
    | some selection => rfl
  · rfl

@[simp] lemma seen?_modifyBranch (b : BranchId) (f : BranchSelection → BranchSelection)
    (key : ResultKey) : (s.modifyBranch b f).seen? key = s.seen? key := rfl

@[simp] lemma branch_setMembership (key : ResultKey) (membership : ResultMembership)
    (b : BranchId) : (s.setMembership key membership).branch b = s.branch b := rfl

@[simp] lemma seen?_setMembership (key key' : ResultKey) (membership : ResultMembership) :
    (s.setMembership key membership).seen? key' =
      if key = key' then (s.seen? key').map fun seen => { seen with membership }
      else s.seen? key' := by
  simp only [setMembership, seen?, Std.ExtTreeMap.lookup_modify]

@[simp] lemma branch_discardResult (b b' : BranchId) (identity : String) :
    (s.discardResult b identity).branch b' =
      if b = b' then
        { s.branch b with results := (s.branch b).results.filter (·.message.id != identity) }
      else s.branch b' := by
  rw [discardResult, branch_modifyBranch _ _ _ rfl]

@[simp] lemma seen?_discardResult (b : BranchId) (identity : String) (key : ResultKey) :
    (s.discardResult b identity).seen? key = s.seen? key := rfl

@[simp] lemma branch_retireWindow (b b' : BranchId) :
    (s.retireWindow b).branch b' =
      if b = b' then { s.branch b with results := [] } else s.branch b' := by
  show (s.modifyBranch b fun selection => { selection with results := [] }).branch b' = _
  rw [branch_modifyBranch _ _ _ rfl]

@[simp] lemma seen?_retireWindow (b : BranchId) (key : ResultKey) :
    (s.retireWindow b).seen? key =
      (s.seen? key).map fun seen => if key.branch == b then SeenResult.retire seen else seen := by
  simp only [retireWindow, modifyBranch, seen?, Std.ExtTreeMap.lookup_map]

@[simp] lemma branch_recordSeen (key : ResultKey) (rev : Nat) (observation : Observation)
    (b : BranchId) : (s.recordSeen key rev observation).branch b = s.branch b := rfl

@[simp] lemma seen?_recordSeen (key key' : ResultKey) (rev : Nat)
    (observation : Observation) :
    (s.recordSeen key rev observation).seen? key' =
      if key = key' then
        some ⟨!observation.kind.isOther || (s.seen? key).any (·.terminalSeen), rev,
          observation.version, observation.nativeOrder, carriedMembership (s.seen? key)⟩
      else s.seen? key' := by
  simp only [recordSeen, seen?, Std.ExtTreeMap.lookup_insert]

@[simp] lemma branch_noteDiagnostic (b b' : BranchId) (diagnostic : Option FilterDiagnostic) :
    (s.noteDiagnostic b diagnostic).branch b' =
      if b = b' then { s.branch b with lastFilterDiagnostic := diagnostic } else s.branch b' := by
  rw [noteDiagnostic, branch_updateBranch]

@[simp] lemma seen?_noteDiagnostic (b : BranchId) (diagnostic : Option FilterDiagnostic)
    (key : ResultKey) : (s.noteDiagnostic b diagnostic).seen? key = s.seen? key := rfl

lemma identities_pushResult (b b' : BranchId) (size : Nat) (item : SelectedMessage) :
    ((s.pushResult b size item).branch b').identities =
      if b = b' then
        (((s.branch b).identities ++ [item.message.id]).drop
          (((s.branch b).identities ++ [item.message.id]).length - size))
      else (s.branch b').identities := by
  have hfold : ∀ (evicted : List SelectedMessage) (t : SelectionState),
      (evicted.foldl (fun s old => s.setMembership ⟨b, old.message.id⟩ .retired) t).branch b' =
        t.branch b' := by
    intro evicted
    induction evicted with
    | nil => intro t; rfl
    | cons old rest ih => intro t; rw [List.foldl_cons, ih, branch_setMembership]
  simp only [pushResult, hfold, branch_updateBranch]
  split_ifs with h
  · simp only [BranchSelection.identities, List.map_drop, List.map_append, List.map_cons,
      List.map_nil, List.length_append, List.length_map, List.length_cons, List.length_nil]
  · rfl

lemma seen?_pushResult (b : BranchId) (size : Nat) (item : SelectedMessage) (key : ResultKey) :
    (s.pushResult b size item).seen? key =
      if key.branch = b ∧ key.identity ∈ ((s.branch b).identities ++ [item.message.id]).take
          (((s.branch b).identities ++ [item.message.id]).length - size) then
        (s.seen? key).map fun seen => { seen with membership := .retired }
      else s.seen? key := by
  have hfold : ∀ (evicted : List SelectedMessage) (t : SelectionState),
      (evicted.foldl (fun s old => s.setMembership ⟨b, old.message.id⟩ .retired) t).seen? key =
        if key.branch = b ∧ key.identity ∈ evicted.map (·.message.id) then
          (t.seen? key).map fun seen => { seen with membership := .retired }
        else t.seen? key := by
    intro evicted
    induction evicted with
    | nil => intro t; simp
    | cons old rest ih =>
      intro t
      rw [List.foldl_cons, ih, seen?_setMembership]
      obtain ⟨kb, ki⟩ := key
      by_cases hold : kb = b ∧ ki = old.message.id
      · obtain ⟨rfl, rfl⟩ := hold
        simp [Function.comp_def]
      · have hne : (⟨b, old.message.id⟩ : ResultKey) ≠ ⟨kb, ki⟩ := by
          intro h
          rw [ResultKey.mk.injEq] at h
          exact hold ⟨h.1.symm, h.2.symm⟩
        rw [if_neg hne]
        by_cases hb : kb = b
        · have hi : ki ≠ old.message.id := fun hi => hold ⟨hb, hi⟩
          simp [hb, hi]
        · simp [hb]
  simp only [pushResult, hfold, seen?_updateBranch]
  simp only [BranchSelection.identities, List.map_take, List.map_append, List.map_cons,
    List.map_nil, List.length_append, List.length_map, List.length_cons, List.length_nil]

end SelectionState

/-! ### What applying an event can do -/

section Cases

variable [Platform] {ε : Type} {act : EffectiveActivation} {observation : Observation}
  {capture : Capture ε} {outcome : SelectionOutcome}

/-- How the context of a candidate comes about: the trigger context, captures
for the condition, the matched condition, captures for the candidate. -/
def CandidateContext (act : EffectiveActivation) (observation : Observation)
    (coverageComplete : Bool) (capture : Capture ε) (context : FrozenContext) : Prop :=
  ∃ base conditioned,
    triggerContext observation coverageComplete = some base ∧
    captureForCondition act.compiled.currentInventoryDemand capture base = .ok conditioned ∧
    evaluateTriggerCondition act.compiled conditioned.value = .matched ∧
    captureForCandidate act.compiled.currentInventoryDemand capture conditioned =
      .ok context

namespace SelectionState

variable {s t : SelectionState}

def selectMessage (s : SelectionState) (act : EffectiveActivation)
    (observation : Observation) (message : Message) : SelectionState :=
  (s.noteDiagnostic observation.branch none).pushResult observation.branch
    (min (act.compiled.trigger.window.getD .single).size MAX_WINDOW_MESSAGES)
    ⟨observation.version, observation.nativeOrder, message, observation.complete⟩

/-- Everything that selecting a terminal, non-historical event can do. -/
inductive ApplyCase (s : SelectionState) (activation : EffectiveActivation)
    (observation : Observation) (capture : Capture ε) : SelectionOutcome → SelectionState → Prop
  /-- Filters, context or condition stop the event. -/
  | rejected {outcome : SelectionOutcome} {t : SelectionState} (hupdated : outcome ≠ .updated) (hcandidate : outcome.candidate? = none)
      (hstate : t = s ∨ ∃ diagnostic, t = s.noteDiagnostic observation.branch diagnostic) :
      ApplyCase s activation observation capture outcome t
  /-- An event without a message becomes a candidate. -/
  | event {context : FrozenContext} (hkind : observation.kind.message? = none)
      (hfilters : evaluateEventFilters activation.compiled observation = .ok true)
      (hcontext : CandidateContext activation observation
        (s.branch observation.branch).coverageComplete capture context) :
      ApplyCase s activation observation capture
        (.candidate (freezeCandidate activation observation [] context
          (EvidenceDependency.sortDedup context.dependencies)))
        (s.noteDiagnostic observation.branch none)
  /-- The window is below its minimum. -/
  | collected {message : Message} (hkind : observation.kind.message? = some message) :
      ApplyCase s activation observation capture .updated
        (s.selectMessage activation observation message)
  /-- The window becomes a candidate. -/
  | window {message : Message} {context : FrozenContext} {messages : List Message}
      {dependencies : List EvidenceDependency}
      (hkind : observation.kind.message? = some message)
      (hcontext : CandidateContext activation observation
        (s.branch observation.branch).coverageComplete capture context) :
      ApplyCase s activation observation capture
        (.candidate (freezeCandidate activation observation messages
          (withWindowRoot activation.compiled messages context) dependencies))
        (s.selectMessage activation observation message)

lemma applyWithInventories_cases
    (h : s.applyWithInventories act observation capture = .ok (outcome, t))
    (hkind : observation.kind.isOther = false)
    (hhistorical : isHistorical act observation = false) :
    ApplyCase s act observation capture outcome t := by
  unfold applyWithInventories at h
  simp only [hkind, hhistorical, Bool.or_self, Bool.false_eq_true, if_false] at h
  split at h
  · cases h
    exact .rejected (by simp) rfl (.inr ⟨_, rfl⟩)
  · cases h
    exact .rejected (by simp) rfl (.inl rfl)
  · rename_i hfilters
    have hcoverage : ((s.noteDiagnostic observation.branch none).branch
        observation.branch).coverageComplete = (s.branch observation.branch).coverageComplete := by
      rw [branch_noteDiagnostic, if_pos rfl]
    rw [hcoverage] at h
    split at h
    · cases h
      exact .rejected (by simp) rfl (.inr ⟨_, rfl⟩)
    · rename_i base hbase
      simp only [bind, Except.bind] at h
      split at h
      · cases h
      · rename_i conditioned hcond
        by_cases hmat :
            evaluateTriggerCondition act.compiled conditioned.value = .matched
        · simp only [hmat, ne_eq, not_true_eq_false, if_false] at h
          have hctx : ∀ context, captureForCandidate
              act.compiled.currentInventoryDemand capture conditioned = .ok context →
              CandidateContext act observation
                (s.branch observation.branch).coverageComplete capture context :=
            fun context hcapt => ⟨base, conditioned, hbase, hcond, hmat, hcapt⟩
          split at h
          · rename_i hmsg
            split at h
            · cases h
            · rename_i context hcapt
              cases h
              exact .event hmsg hfilters (hctx _ hcapt)
          · rename_i msg hmsg
            split at h
            · cases h
              exact .collected hmsg
            · split at h
              · cases h
              · rename_i context hcapt
                cases h
                exact .window hmsg (hctx _ hcapt)
        · simp only [ne_eq, hmat, not_false_eq_true, if_true] at h
          cases h
          exact .rejected (by simp) rfl (.inr ⟨_, rfl⟩)

/-- Everything that a later version of a recorded terminal identity can do. -/
inductive CorrectionCase (s : SelectionState) (key : ResultKey) (previous : SeenResult)
    (observation : Observation) : SelectionOutcome → SelectionState → Prop
  /-- The identity is out of the window for good. -/
  | settled
      (hmembership : previous.membership = .historical ∨ previous.membership = .retired ∨
        previous.membership = .removed) :
      CorrectionCase s key previous observation .updated s
  /-- The new version fails filters or condition. -/
  | excluded {outcome : SelectionOutcome} {diagnostic : Option FilterDiagnostic}
      (hcandidate : outcome.candidate? = none) :
      CorrectionCase s key previous observation outcome
        (((s.noteDiagnostic observation.branch diagnostic).discardResult observation.branch
          key.identity).setMembership key .excluded)
  /-- An older checkpoint does not say whether the identity was selected. -/
  | unknown {diagnostic : Option FilterDiagnostic}
      (hout : key.identity ∉ (s.branch observation.branch).identities) :
      CorrectionCase s key previous observation .windowInvalidated
        (((s.noteDiagnostic observation.branch diagnostic).setMembership key
          .retired).markCoverageGap observation.branch)
  /-- Order or membership of the window became uncertain. -/
  | invalidated {diagnostic : Option FilterDiagnostic} :
      CorrectionCase s key previous observation .windowInvalidated
        ((((s.noteDiagnostic observation.branch diagnostic).retireWindow
          observation.branch).markCoverageGap observation.branch).setMembership key .retired)
  /-- The message is replaced in place. -/
  | replaced {message : Message} {diagnostic : Option FilterDiagnostic}
      (hkind : observation.kind.message? = some message)
      (hin : key.identity ∈ (s.branch observation.branch).identities) :
      CorrectionCase s key previous observation .updated
        (((s.noteDiagnostic observation.branch diagnostic).replaceResult observation.branch
          key.identity observation message).setMembership key .selected)

lemma applyCorrection_cases {key : ResultKey} {prev : SeenResult}
    (h : s.applyCorrection act key prev observation capture = .ok (outcome, t)) :
    CorrectionCase s key prev observation outcome t := by
  unfold applyCorrection at h
  split at h
  · cases h; exact .settled (.inl ‹_›)
  · cases h; exact .settled (.inr (.inl ‹_›))
  · cases h; exact .settled (.inr (.inr ‹_›))
  · simp only [bind, Except.bind] at h
    split at h
    · cases h
    · rename_i hmatches
      split at h
      · cases h
        refine .excluded ?_
        split <;> rfl
      · split at h
        · rename_i hunk
          cases h
          refine .unknown ?_
          simp only [Bool.and_eq_true, Bool.not_eq_true', decide_eq_true_eq] at hunk
          intro hin
          rw [List.contains_iff_mem.mpr hin] at hunk
          exact absurd hunk.2 (by simp)
        · split at h
          · cases h; exact .invalidated
          · rename_i hsame
            split at h
            · cases h
            · rename_i msg hmsg
              cases h
              refine .replaced hmsg ?_
              simp only [ne_eq, Bool.or_eq_true, decide_eq_true_eq, Bool.not_eq_true',
                not_or] at hsame
              exact List.contains_iff_mem.mp (by simpa using hsame.2)

/-- Everything that `apply_published` can do. -/
inductive PublishedCase (s : SelectionState) (activation : EffectiveActivation)
    (identity : String) (revision : Nat) (observation : Observation) (capture : Capture ε) :
    Admission → SelectionOutcome → SelectionState → Prop
  | refused :
      PublishedCase s activation identity revision observation capture .refused .updated s
  | limit (hunseen : s.seen? ⟨observation.branch, identity⟩ = none)
      (hfull : MAX_SEEN_RESULTS_PER_BRANCH ≤ s.identityCount observation.branch) :
      PublishedCase s activation identity revision observation capture .limit .updated
        (s.markIdentityLimit observation.branch)
  /-- A terminal observation from before the activation boundary. -/
  | historical (hterminal : observation.kind.isOther = false)
      (hhistorical : isHistorical activation observation = true) :
      PublishedCase s activation identity revision observation capture .accepted .updated
        (((s.recordSeen ⟨observation.branch, identity⟩ revision observation).discardResult
          observation.branch identity).setMembership ⟨observation.branch, identity⟩ .historical)
  /-- The identity has no terminal observation yet. -/
  | pending (hterminal : observation.kind.isOther = true)
      (hprevious : (s.seen? ⟨observation.branch, identity⟩).any (·.terminalSeen) = false) :
      PublishedCase s activation identity revision observation capture .accepted .updated
        (s.recordSeen ⟨observation.branch, identity⟩ revision observation)
  /-- The first terminal observation of the identity. -/
  | first {outcome : SelectionOutcome} {t : SelectionState}
      (hterminal : observation.kind.isOther = false)
      (hhistorical : isHistorical activation observation = false)
      (hprevious : (s.seen? ⟨observation.branch, identity⟩).any (·.terminalSeen) = false)
      (happly : ApplyCase (s.recordSeen ⟨observation.branch, identity⟩ revision observation)
        activation observation capture outcome t) :
      PublishedCase s activation identity revision observation capture .accepted outcome
        (t.setMembership ⟨observation.branch, identity⟩ outcome.firstMembership)
  /-- A later version of an event that is no message. -/
  | repeated {previous : SeenResult}
      (hprevious : s.seen? ⟨observation.branch, identity⟩ = some previous)
      (hseen : previous.terminalSeen = true)
      (hfamily : activation.compiled.trigger.family.isMessages = false) :
      PublishedCase s activation identity revision observation capture .accepted .updated
        ((s.recordSeen ⟨observation.branch, identity⟩ revision observation).setMembership
          ⟨observation.branch, identity⟩ .retired)
  /-- A later version of a message. -/
  | correction {previous : SeenResult} {outcome : SelectionOutcome} {t : SelectionState}
      (hprevious : s.seen? ⟨observation.branch, identity⟩ = some previous)
      (hseen : previous.terminalSeen = true)
      (hcorrection : CorrectionCase
        (s.recordSeen ⟨observation.branch, identity⟩ revision observation)
        ⟨observation.branch, identity⟩ previous observation outcome t) :
      PublishedCase s activation identity revision observation capture .accepted outcome t

lemma applyPublished_cases {identity : String} {rev : Nat}
    (h : s.applyPublishedWithInventories act identity rev observation capture =
      .ok (outcome, t)) :
    PublishedCase s act identity rev observation capture
      (s.admission ⟨observation.branch, identity⟩ rev observation.version) outcome t := by
  unfold applyPublishedWithInventories at h
  cases hadmn : s.admission ⟨observation.branch, identity⟩ rev observation.version with
  | refused =>
    simp only [hadmn] at h
    cases h
    exact .refused
  | limit =>
    simp only [hadmn] at h
    cases h
    unfold admission at hadmn
    split_ifs at hadmn with hflag hstale hfull
    simp only [Bool.and_eq_true, Option.isNone_iff_eq_none, decide_eq_true_eq] at hfull
    exact .limit hfull.1 hfull.2
  | accepted =>
    simp only [hadmn] at h
    split at h
    · rename_i hhistorical
      simp only [Bool.and_eq_true, Bool.not_eq_true'] at hhistorical
      cases h
      exact .historical hhistorical.1 hhistorical.2
    · rename_i hhistorical
      split at h
      · rename_i hnone
        have hprev : (s.seen? ⟨observation.branch, identity⟩).any (·.terminalSeen) = false := by
          cases hseen : s.seen? ⟨observation.branch, identity⟩ with
          | none => rfl
          | some prev =>
            rw [hseen] at hnone
            simpa [Option.filter] using hnone
        by_cases hterminal : observation.kind.isOther = true
        · simp only [hterminal, Bool.not_true, Bool.not_false, if_true] at h
          cases h
          exact .pending hterminal hprev
        · have hterminal : observation.kind.isOther = false := by simpa using hterminal
          simp only [hterminal, Bool.not_false, Bool.true_and, Bool.not_eq_true] at hhistorical
          simp only [hterminal, Bool.not_false, Bool.not_true, Bool.false_eq_true, if_false, bind,
            Except.bind] at h
          split at h
          · cases h
          · rename_i applied happl
            obtain ⟨outcome', t'⟩ := applied
            cases h
            exact .first hterminal hhistorical hprev
              (applyWithInventories_cases happl hterminal hhistorical)
      · rename_i prev hsome
        have hprev : s.seen? ⟨observation.branch, identity⟩ = some prev ∧
            prev.terminalSeen = true := by
          rw [Option.filter_eq_some_iff] at hsome
          exact hsome
        split at h
        · exact .correction hprev.1 hprev.2 (applyCorrection_cases h)
        · rename_i hfamily
          cases h
          exact .repeated hprev.1 hprev.2 (by simpa using hfamily)

end SelectionState

end Cases

end Antiburn
