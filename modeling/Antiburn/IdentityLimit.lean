/-
The identity limit of a branch and the coverage its candidates report.

A branch that knows the greatest number of identities rejects unseen ones and
is marked incomplete.  Gaps and resets keep it so; `restore_coverage` does not
look at the mark.
-/
import Antiburn.WindowRuns

namespace Antiburn

namespace SelectionState

variable (s : SelectionState)

/-! ### The two flags of a branch -/

def limited (b : BranchId) : Bool := (s.branch b).identityLimitReached

def covered (b : BranchId) : Bool := (s.branch b).coverageComplete

def flags (b : BranchId) : Bool × Bool := (s.limited b, s.covered b)

lemma flags_congr {s t : SelectionState} {b : BranchId}
    (hlimit : (t.branch b).identityLimitReached = (s.branch b).identityLimitReached)
    (hcoverage : (t.branch b).coverageComplete = (s.branch b).coverageComplete) :
    t.flags b = s.flags b := by
  rw [flags, flags, limited, limited, covered, covered, hlimit, hcoverage]

lemma flags_updateBranch (b b' : BranchId) (f : BranchSelection → BranchSelection) :
    (s.updateBranch b f).flags b' =
      if b = b' then ((f (s.branch b)).identityLimitReached, (f (s.branch b)).coverageComplete)
      else s.flags b' := by
  simp only [flags, limited, covered, branch_updateBranch]
  split_ifs <;> rfl

@[simp] lemma flags_noteDiagnostic (b b' : BranchId) (diagnostic : Option FilterDiagnostic) :
    (s.noteDiagnostic b diagnostic).flags b' = s.flags b' := by
  rw [noteDiagnostic, flags_updateBranch]
  split_ifs with h
  · rw [← h]; rfl
  · rfl

@[simp] lemma flags_markCoverageGap (b b' : BranchId) :
    (s.markCoverageGap b).flags b' = if b = b' then ((s.flags b).1, false) else s.flags b' :=
  s.flags_updateBranch b b' _

@[simp] lemma flags_markIdentityLimit (b b' : BranchId) :
    (s.markIdentityLimit b).flags b' = if b = b' then (true, false) else s.flags b' :=
  s.flags_updateBranch b b' _

@[simp] lemma flags_setMembership (key : ResultKey) (membership : ResultMembership)
    (b : BranchId) : (s.setMembership key membership).flags b = s.flags b := rfl

@[simp] lemma flags_recordSeen (key : ResultKey) (rev : Nat) (obs : Observation)
    (b : BranchId) : (s.recordSeen key rev obs).flags b = s.flags b := rfl

@[simp] lemma flags_recordRemoval (key : ResultKey) (rev : Nat) (b : BranchId) :
    (s.recordRemoval key rev).flags b = s.flags b := rfl

@[simp] lemma flags_discardResult (b b' : BranchId) (identity : String) :
    (s.discardResult b identity).flags b' = s.flags b' := by
  refine flags_congr ?_ ?_ <;> rw [branch_discardResult] <;> split_ifs with h <;> simp [h]

@[simp] lemma flags_retireWindow (b b' : BranchId) :
    (s.retireWindow b).flags b' = s.flags b' := by
  refine flags_congr ?_ ?_ <;> rw [branch_retireWindow] <;> split_ifs with h <;> simp [h]

@[simp] lemma flags_replaceResult (b b' : BranchId) (identity : String)
    (obs : Observation) (msg : Message) :
    (s.replaceResult b identity obs msg).flags b' = s.flags b' := by
  refine flags_congr ?_ ?_ <;> rw [replaceResult, branch_modifyBranch _ _ _ rfl] <;>
    split_ifs with h <;> simp [h]

@[simp] lemma flags_selectMessage (act : EffectiveActivation) (obs : Observation)
    (msg : Message) (b : BranchId) :
    (s.selectMessage act obs msg).flags b = s.flags b := by
  have hfold : ∀ (evicted : List SelectedMessage) (t : SelectionState),
      (evicted.foldl (fun s old => s.setMembership ⟨obs.branch, old.message.id⟩ .retired)
        t).flags b = t.flags b := by
    intro evicted
    induction evicted with
    | nil => intro t; rfl
    | cons old rest ih => intro t; rw [List.foldl_cons, ih, flags_setMembership]
  simp only [selectMessage, pushResult, hfold, flags_updateBranch]
  split_ifs with h
  · rw [← h]
    exact s.flags_noteDiagnostic _ _ _
  · rw [flags_noteDiagnostic]

@[simp] lemma flags_resetSegment (b b' : BranchId) :
    (s.resetSegment b).flags b' = if b = b' then ((s.flags b).1, false) else s.flags b' := by
  rw [resetSegment, flags_markCoverageGap, flags_retireWindow, flags_retireWindow]

@[simp] lemma flags_restoreCoverage (b b' : BranchId) :
    (s.restoreCoverage b).flags b' = if b = b' then ((s.flags b).1, true) else s.flags b' := by
  rw [restoreCoverage, flags_updateBranch, flags_retireWindow, ← flags_retireWindow s b b]
  rfl

end SelectionState

section Runs

variable [Platform] {act : EffectiveActivation} {s t : SelectionState}
  {label : SelectionLabel}

open SelectionState

/-! ### What a call does to the flags -/

inductive FlagsChange (s : SelectionState) (b : BranchId) (op : SelectionOp)
    (t : SelectionState) : Prop
  | unchanged (h : t.flags b = s.flags b)
  /-- The coverage is given up. -/
  | uncovered (hcovered : t.covered b = false) (hlimited : s.limited b = true → t.limited b = true)
  /-- The coverage is restored, whatever the limit. -/
  | restored (hop : op = .restore b) (h : t.flags b = (s.limited b, true))

omit [Platform] in
/-- A call that gives up the coverage of one branch. -/
lemma FlagsChange.gap {b : BranchId} {op : SelectionOp} (b' : BranchId) (limit : Bool)
    (h : t.flags b = if b' = b then (limit, false) else s.flags b)
    (hlimit : b' = b → s.limited b = true → limit = true) : FlagsChange s b op t := by
  by_cases hb : b' = b
  · rw [if_pos hb] at h
    exact .uncovered (congrArg Prod.snd h) fun hs =>
      (congrArg Prod.fst h).trans (hlimit hb hs)
  · rw [if_neg hb] at h
    exact .unchanged h

lemma SelectorCase.flagsChange (h : SelectorCase s act label t) (b : BranchId) :
    FlagsChange s b label.1 t := by
  cases h with
  | @apply identity rev obs _ _ _ _ happly =>
    cases happly with
    | refused => exact .unchanged rfl
    | limit _ _ => exact .gap _ _ (s.flags_markIdentityLimit _ b) fun _ _ => rfl
    | historical _ _ | pending _ _ => exact .unchanged (by simp)
    | first _ _ _ happly =>
      cases happly with
      | rejected _ _ hstate =>
        rcases hstate with rfl | ⟨diagnostic, rfl⟩ <;> exact .unchanged (by simp)
      | event | collected | window => exact .unchanged (by simp)
    | repeated _ _ _ => exact .unchanged (by simp)
    | correction _ _ hcorr =>
      cases hcorr with
      | settled _ | excluded _ => exact .unchanged (by simp)
      | unknown _ | invalidated =>
        refine .gap obs.branch (s.flags obs.branch).1 (by simp) ?_
        rintro rfl hs
        exact hs
      | replaced _ _ => exact .unchanged (by simp)
  | removeStale => exact .unchanged rfl
  | @removeLimit branch identity _ _ _ =>
    refine .gap branch true ?_ fun _ _ => rfl
    rw [flags_discardResult, flags_markIdentityLimit]
  | remove => exact .unchanged (by simp)
  | @markGap branch =>
    refine .gap _ _ (s.flags_markCoverageGap branch b) ?_
    rintro rfl hs
    exact hs
  | @reset branch =>
    refine .gap _ _ (s.flags_resetSegment branch b) ?_
    rintro rfl hs
    exact hs
  | @restore branch =>
    by_cases hb : branch = b
    · subst hb
      refine .restored rfl ?_
      rw [flags_restoreCoverage, if_pos rfl]
      rfl
    · exact .unchanged (by rw [flags_restoreCoverage, if_neg hb])

lemma SelectorCase.limited_mono (h : SelectorCase s act label t) {b : BranchId}
    (hlimited : s.limited b = true) : t.limited b = true := by
  cases h.flagsChange b with
  | unchanged h => exact (congrArg Prod.fst h).trans hlimited
  | uncovered _ hkeep => exact hkeep hlimited
  | restored _ h => exact (congrArg Prod.fst h).trans hlimited

/-! ### What a candidate reports -/

def FrozenContext.sourceCoverage (context : FrozenContext) : Json :=
  (context.value.index "session").index "source_coverage"

omit [Platform] in
lemma withSourceCoverage_partial (roots : Object) :
    ((Json.object (withSourceCoverage roots false)).index "session").index "source_coverage" ≠
      .string "complete" := by
  unfold withSourceCoverage
  dsimp only
  split
  · simp [Json.index, Json.get?, Json.asObject]
  · rename_i hsess
    -- without a session object there is no such field
    intro h
    simp only [Json.index, Json.get?, Json.asObject, Option.bind_some] at h
    cases hroot : Object.get? roots "session" with
    | none => rw [hroot] at h; cases h
    | some root =>
      rw [hroot] at h
      cases root with
      | object session => exact hsess session hroot
      | _ => cases h

omit [Platform] in
lemma triggerContext_sourceCoverage {obs : Observation} {ctx : FrozenContext}
    (h : triggerContext obs false = some ctx) :
    ctx.sourceCoverage ≠ .string "complete" := by
  unfold triggerContext at h
  rw [Option.map_eq_some_iff] at h
  obtain ⟨roots, _, rfl⟩ := h
  exact withSourceCoverage_partial _

omit [Platform] in
lemma withWindowRoot_sourceCoverage (check : CompiledCheck) (messages : List Message)
    (ctx : FrozenContext) :
    (withWindowRoot check messages ctx).sourceCoverage = ctx.sourceCoverage := by
  unfold withWindowRoot
  split
  · rename_i roots _ hroots
    simp only [FrozenContext.sourceCoverage, hroots, Json.index, Json.get?, Json.asObject,
      Option.bind_some]
    rw [Object.get?_insert_of_ne _ _ (by decide)]
  · rfl

lemma candidate_sourceCoverage {identity : String} {rev : Nat} {obs : Observation}
    {admission : Admission} {frozen : FrozenCandidate}
    (h : s.PublishedCase act identity rev obs (.ok none : Capture Empty)
      admission (.candidate frozen) t)
    (hcovered : s.covered obs.branch = false) :
    frozen.context.sourceCoverage ≠ .string "complete" := by
  have hctx : ∀ ctx, CandidateContext act obs
      ((s.recordSeen ⟨obs.branch, identity⟩ rev obs).branch
        obs.branch).coverageComplete (.ok none : Capture Empty) ctx →
      ctx.sourceCoverage ≠ .string "complete" := by
    rintro ctx ⟨base, conditioned, hbase, hcond, _, hcapt⟩
    rw [(captures_none _ _).1] at hcond
    rw [(captures_none _ _).2] at hcapt
    cases hcond
    cases hcapt
    have hcovered : ((s.recordSeen ⟨obs.branch, identity⟩ rev obs).branch
      obs.branch).coverageComplete = false := hcovered
    rw [hcovered] at hbase
    exact triggerContext_sourceCoverage hbase
  cases h with
  | first _ _ _ happly =>
    cases happly with
    | rejected _ hcand _ => cases hcand
    | event _ _ hcase => exact hctx _ hcase
    | window _ hcase =>
      show (withWindowRoot _ _ _).sourceCoverage ≠ _
      rw [withWindowRoot_sourceCoverage]
      exact hctx _ hcase
  | correction _ _ hcorr =>
    cases hcorr with
    | excluded hcand => cases hcand

/-! ### Runs -/

/-- Every coverage restore of a run is on a branch that has not reached its limit. -/
def RestoresUnlimited (act : EffectiveActivation) (labels : List SelectionLabel) : Prop :=
  ∀ (before after : List SelectionLabel) (b : BranchId) (result : SelectionReturn)
    (u : SelectionState), labels = before ++ (.restore b, result) :: after →
    (selector act).Run {} before u → u.limited b = false

/-- In every state of a run, a limited branch is not covered. -/
def FailsClosed (act : EffectiveActivation) (labels : List SelectionLabel) : Prop :=
  ∀ (before after : List SelectionLabel) (u : SelectionState), labels = before ++ after →
    (selector act).Run {} before u → ∀ b, u.limited b = true → u.covered b = false

lemma RestoresUnlimited.left {labels labels' : List SelectionLabel}
    (h : RestoresUnlimited act (labels ++ labels')) :
    RestoresUnlimited act labels := by
  intro before after b result u hlabels hrun
  refine h before (after ++ labels') b result u ?_ hrun
  rw [hlabels, List.append_assoc, List.cons_append]

lemma step_failsClosed (hstep : (selector act).step s label t)
    (hrestore : ∀ b, label.1 = .restore b → s.limited b = false)
    (h : ∀ b, s.limited b = true → s.covered b = false) (b : BranchId)
    (hlimited : t.limited b = true) : t.covered b = false := by
  cases (selector_cases hstep).flagsChange b with
  | unchanged hflags =>
    have hcovered : t.covered b = s.covered b := congrArg Prod.snd hflags
    have hlimit : t.limited b = s.limited b := congrArg Prod.fst hflags
    rw [hcovered]
    exact h b (hlimit ▸ hlimited)
  | uncovered hcovered _ => exact hcovered
  | restored hop hflags =>
    have hlimit : t.limited b = s.limited b := congrArg Prod.fst hflags
    rw [hlimit, hrestore b hop] at hlimited
    cases hlimited

lemma run_failsClosed {labels : List SelectionLabel} (hrun : (selector act).Run {} labels s)
    (h : RestoresUnlimited act labels) (b : BranchId) (hlimited : s.limited b = true) :
    s.covered b = false := by
  have hall : (selector act).Run {} ([] ++ labels) s ∧
      (RestoresUnlimited act ([] ++ labels) →
        ∀ b, s.limited b = true → s.covered b = false) := by
    refine hrun.trace_invariant (P := fun _ => True)
      (I := fun labels s => (selector act).Run {} labels s ∧
        (RestoresUnlimited act labels → ∀ b, s.limited b = true → s.covered b = false))
      ?_ (fun _ _ => trivial) ⟨.nil _, fun _ b hb => ?_⟩
    · rintro labels u label v - hstep ⟨hbefore, hinv⟩
      refine ⟨hbefore.snoc hstep, fun hrestores => ?_⟩
      refine step_failsClosed hstep ?_ (hinv hrestores.left)
      intro b hop
      obtain ⟨op, result⟩ := label
      cases hop
      exact hrestores labels [] b result u rfl hbefore
    · cases hb
  exact hall.2 h b hlimited

/-- **When the identity limit fails closed.**  A run keeps every limited branch
uncovered exactly if it restores the coverage of no limited branch; then no
candidate frozen on a limited branch reports complete coverage. -/
theorem identity_limit_fails_closed_iff {labels : List SelectionLabel}
    (hrun : (selector act).Run {} labels s) :
    (FailsClosed act labels ↔ RestoresUnlimited act labels) ∧
      (RestoresUnlimited act labels →
        ∀ (before after : List SelectionLabel) (identity : String) (revision : Nat)
          (observation : Observation) (admission : Admission) (frozen : FrozenCandidate)
          (u : SelectionState),
          labels = before ++ (.apply identity revision observation,
            .applied admission (.candidate frozen)) :: after →
          (selector act).Run {} before u → u.limited observation.branch = true →
          frozen.context.sourceCoverage ≠ .string "complete") := by
  refine ⟨⟨?_, ?_⟩, ?_⟩
  · intro hclosed before after b result u hlabels hbefore
    rw [hlabels] at hrun
    obtain ⟨u', hbefore', hrest⟩ := hrun.of_append
    obtain ⟨v, hstep, _⟩ := hrest.of_cons
    have hu : u' = u := hbefore'.unique (selector_deterministic act) hbefore
    subst hu
    cases hlimit : u'.limited b with
    | false => rfl
    | true =>
      -- after the restore the branch is limited and covered at once
      have hcase := selector_cases hstep
      have hcovered := hclosed (before ++ [(.restore b, result)]) after v
        (by rw [hlabels, List.append_assoc, List.singleton_append]) (hbefore.snoc hstep) b
        (hcase.limited_mono hlimit)
      cases hcase with
      | restore =>
        have hflags := u'.flags_restoreCoverage b b
        rw [if_pos rfl] at hflags
        have htrue : (u'.restoreCoverage b).covered b = true := congrArg Prod.snd hflags
        rw [htrue] at hcovered
        cases hcovered
  · intro hrestores before after u hlabels hbefore b hlimited
    rw [hlabels] at hrestores
    exact run_failsClosed hbefore hrestores.left b hlimited
  · intro hrestores before after identity revision observation admission frozen u hlabels hbefore
      hlimited
    rw [hlabels] at hrun hrestores
    have hcovered := run_failsClosed hbefore hrestores.left observation.branch hlimited
    obtain ⟨u', hbefore', hrest⟩ := hrun.of_append
    obtain ⟨v, hstep, _⟩ := hrest.of_cons
    have hu : u' = u := hbefore'.unique (selector_deterministic act) hbefore
    subst hu
    cases selector_cases hstep with
    | apply _ happly => exact candidate_sourceCoverage happly hcovered

end Runs

/-! ### A restore behind the limit -/

def fillIdentity (n : Nat) : String := String.ofList (List.replicate n 'x')

lemma fillIdentity_injective {m n : Nat} (h : fillIdentity m = fillIdentity n) : m = n := by
  have hlen := congrArg String.length h
  simpa [fillIdentity] using hlen

/-- Removals of the first `n` identities. -/
def fillOps (b : BranchId) (n : Nat) : List SelectionOp :=
  (List.range n).map fun m => .remove b (fillIdentity m) 0

section Fill

variable [Platform]

lemma step_remove {act : EffectiveActivation} {s t : SelectionState} {b : BranchId}
    {identity : String} {rev : Nat} {changed : Bool}
    (h : s.removeResult b identity rev = (changed, t)) :
    (selector act).step s (.remove b identity rev, .removed changed) t := by
  show Except.ok (SelectionReturn.removed (s.removeResult b identity rev).1,
    (s.removeResult b identity rev).2) = Except.ok (.removed changed, t)
  rw [h]

lemma exists_filled (act : EffectiveActivation) (b : BranchId) (n : Nat)
    (hn : n ≤ MAX_SEEN_RESULTS_PER_BRANCH) :
    ∃ (labels : List SelectionLabel) (s : SelectionState),
      (selector act).Run {} labels s ∧ labels.map Prod.fst = fillOps b n ∧
      s.identityCount b = n ∧ ∀ m, n ≤ m → s.seen? ⟨b, fillIdentity m⟩ = none := by
  induction n with
  | zero => exact ⟨[], {}, .nil _, rfl, rfl, fun _ _ => rfl⟩
  | succ n ih =>
    obtain ⟨labels, s, hrun, hops, hcount, hfresh⟩ := ih (Nat.le_of_succ_le hn)
    have hunseen := hfresh n (Nat.le_refl n)
    have hremove : s.removeResult b (fillIdentity n) 0 =
        (true, (s.recordRemoval ⟨b, fillIdentity n⟩ 0).discardResult b (fillIdentity n)) := by
      unfold SelectionState.removeResult SelectionState.removalStale
      have hroom : ¬ MAX_SEEN_RESULTS_PER_BRANCH ≤ n := by omega
      simp [hunseen, hcount, hroom]
    refine ⟨_, _, hrun.snoc (step_remove hremove), ?_, ?_, ?_⟩
    · rw [List.map_append, hops, fillOps, fillOps, List.range_succ, List.map_append]
      rfl
    · show (s.seenResults.insert _ _).countKeys _ = n + 1
      rw [Std.ExtTreeMap.countKeys_insert_new _ hunseen (by simp)]
      exact congrArg (· + 1) hcount
    · intro m hm
      have hne : (⟨b, fillIdentity n⟩ : ResultKey) ≠ ⟨b, fillIdentity m⟩ := by
        intro heq
        have := fillIdentity_injective (congrArg ResultKey.identity heq)
        omega
      rw [SelectionState.seen?_discardResult, SelectionState.seen?_recordRemoval, if_neg hne]
      exact hfresh m (Nat.le_of_succ_le hm)

end Fill

/-- A branch is filled, one more removal sets the limit, and a restore covers the
branch again: it rejects unseen identities and counts as complete. -/
theorem restore_covers_limited_branch :
    ∃ (labels : List SelectionLabel) (s : SelectionState),
      labels.map Prod.fst = fillOps "main" 4096 ++
        [.remove "main" (fillIdentity 4096) 0, .restore "main"] ∧
      (@selector asciiPlatform (userMessageActivation 1 (by decide) (by decide))).Run {} labels s ∧
      (s.branch "main").identityLimitReached = true ∧
      (s.branch "main").coverageComplete = true := by
  let act := userMessageActivation 1 (by decide) (by decide)
  obtain ⟨labels, s, hrun, hops, hcount, hfresh⟩ := @exists_filled asciiPlatform act "main"
    4096 (Nat.le_refl _)
  let excess := fillIdentity 4096
  have hunseen := hfresh 4096 (Nat.le_refl _)
  have hremove : s.removeResult "main" excess 0 =
      (true, (s.markIdentityLimit "main").discardResult "main" excess) := by
    unfold SelectionState.removeResult SelectionState.removalStale
    simp [excess, hunseen, hcount, MAX_SEEN_RESULTS_PER_BRANCH]
  have hlimit := hrun.snoc (@step_remove asciiPlatform act _ _ _ _ _ _ hremove)
  let t := (s.markIdentityLimit "main").discardResult "main" excess
  have hrestore : (@selector asciiPlatform act).step t (.restore "main", .done)
    (t.restoreCoverage "main") := rfl
  have hflags := t.flags_restoreCoverage "main" "main"
  rw [if_pos rfl, SelectionState.flags_discardResult, SelectionState.flags_markIdentityLimit,
    if_pos rfl] at hflags
  refine ⟨_, _, ?_, hlimit.snoc hrestore, congrArg Prod.fst hflags, congrArg Prod.snd hflags⟩
  rw [List.map_append, List.map_append, hops, List.append_assoc]
  rfl

theorem identity_limit_fails_closed_iff_twoMessages :
    ∃ labels : List SelectionLabel,
      labels.map Prod.fst = .restore "main" :: twoMessages ∧
      @FailsClosed asciiPlatform (userMessageActivation 1 (by decide) (by decide)) labels := by
  let act := userMessageActivation 1 (by decide) (by decide)
  obtain ⟨labels, s, hrun, hops, -⟩ := @SelectionOp.exists_run asciiPlatform act
    (.restore "main" :: twoMessages) {} (fun _ => true) (by decide +kernel)
  refine ⟨labels, hops, ?_⟩
  refine (@identity_limit_fails_closed_iff asciiPlatform act s labels hrun).1.mpr ?_
  intro before after b result u hlabels hbefore
  cases before with
  | nil => cases hbefore; rfl
  | cons label before =>
    -- only the first call restores
    rw [hlabels] at hops
    simp only [List.map_append, List.map_cons, List.cons_append, List.cons.injEq] at hops
    have hmem : SelectionOp.restore b ∈ twoMessages := by
      rw [← hops.2]
      simp
    simp [twoMessages] at hmem

end Antiburn
