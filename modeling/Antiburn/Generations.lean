/-
A generation names one activation for ever.

Every record that is committed has a generation of its own, one above the one before.
An activation that is registered or loaded is what such a record says, also after its
row was edited in place: an edited record is removed, and no removed record is read
as an activation.
-/
import Antiburn.Lifecycle
import Antiburn.CandidateSafety

namespace Antiburn

variable [Platform]

/-! ### What a transition saves -/

def StoreCheckStore.generationOf (store : StoreCheckStore) (definitionId : String)
    (tables : CheckTables) : Nat :=
  (tables.activation? definitionId store.scope).elim 0 ActivationRow.generation

omit [Platform] in
lemma integer_lt {value value' : Nat} (h : integer value = .ok value') : value < 2 ^ 63 := by
  unfold integer at h
  split_ifs at h with hlt
  exact hlt

def LifecycleTransition.names (store : StoreCheckStore) (definitionId : String)
    (record : LifecycleRecord) (active : RegisteredActivation) : Prop :=
  LifecycleTransition.activeRecord active = record ∧ active.id.scope = store.scope ∧
    active.id.definitionId = definitionId

variable {record : LifecycleRecord}

namespace StoreCheckStore

variable {store : StoreCheckStore} {definitionId : String} {transition : LifecycleTransition}
  {act : Option ActivationId} {tables : CheckTables}

variable {active : RegisteredActivation}

omit [Platform] in
lemma checkTransition_active
    (h : store.checkTransition definitionId act (some active) = .ok ()) :
    active.id.scope = store.scope ∧ active.id.definitionId = definitionId := by
  unfold checkTransition validateActivation at h
  obtain ⟨⟨⟩, hvali, h⟩ := Except.of_bind_ok h
  obtain ⟨⟨⟩, hscope, -⟩ := Except.of_bind_ok hvali
  have hid := ensure_ok h
  rw [Bool.and_eq_true] at hid
  exact ⟨beq_iff_eq.mp (ensure_ok hscope), beq_iff_eq.mp hid.1⟩

omit [Platform] in
lemma record_of_active (h : transition.active? = some active) :
    ∃ changed, transition.record? = some (LifecycleTransition.activeRecord active, changed) := by
  cases transition with
  | unchanged active' =>
    cases h
    exact ⟨false, rfl⟩
  | activated active' =>
    cases h
    exact ⟨true, rfl⟩
  | deactivated _ _ _ _ _ _ | removed _ | unchangedInactive => cases h

/-- **A change has the next generation.** -/
lemma lifecycleChange_some
    (h : store.lifecycleChange definitionId transition act tables = .ok (some record)) :
    record.generation = store.generationOf definitionId tables + 1 ∧
      ∀ active, transition.active? = some active →
        LifecycleTransition.names store definitionId record active := by
  unfold lifecycleChange at h
  obtain ⟨⟨⟩, hcheck, h⟩ := Except.of_bind_ok h
  split at h
  · cases h
  rename_i record' changed hrecord
  dsimp only at h
  split_ifs at h
  · cases h
  · cases h
  obtain ⟨⟨⟩, hswap, h⟩ := Except.of_bind_ok h
  obtain ⟨generation, hgeneration, h⟩ := Except.of_bind_ok h
  obtain ⟨_, _, h⟩ := Except.of_bind_ok h
  cases h
  refine ⟨?_, fun active hactive => ?_⟩
  · have heq := ensure_ok hswap
    rw [Bool.and_eq_true, beq_iff_eq] at heq
    have hlt := integer_lt hgeneration
    unfold generationOf
    cases hrow : tables.activation? definitionId store.scope with
    | none =>
      rw [hrow] at heq
      exact heq.2
    | some row =>
      rw [hrow] at heq
      have hsaturated : record.generation = min (row.generation + 1) U64_MAX := heq.2
      -- a counter that fits its column is not saturated
      have hmax : (2 : Nat) ^ 63 ≤ U64_MAX := by decide
      show record.generation = row.generation + 1
      omega
  · obtain ⟨changed', hsaved⟩ := record_of_active hactive
    rw [hrecord, Option.some.injEq, Prod.mk.injEq] at hsaved
    rw [hactive] at hcheck
    exact ⟨hsaved.1.symm, checkTransition_active hcheck⟩

lemma lifecycleChange_none
    (h : store.lifecycleChange definitionId transition act tables = .ok none)
    (hactive : transition.active? = some active) :
    ∃ row record, tables.activation? definitionId store.scope = some row ∧
      row.lifecycle = some record ∧ LifecycleTransition.names store definitionId record active := by
  unfold lifecycleChange at h
  obtain ⟨⟨⟩, hcheck, h⟩ := Except.of_bind_ok h
  obtain ⟨changed, hrecord⟩ := record_of_active hactive
  rw [hrecord] at h
  dsimp only at h
  have hnotRemoved : alreadyRemoved (LifecycleTransition.activeRecord active)
      (tables.activation? definitionId store.scope) = false := by
    unfold alreadyRemoved
    have hstate : ((LifecycleTransition.activeRecord active).state == "removed") = false := rfl
    split
    · rw [hstate, Bool.false_and]
    · rw [hstate, Bool.false_and, Bool.false_and]
  rw [hnotRemoved, if_neg Bool.false_ne_true] at h
  split_ifs at h with hsame
  · rw [Option.any_eq_true] at hsame
    obtain ⟨row, hrow, hlife⟩ := hsame
    rw [hactive] at hcheck
    exact ⟨row, _, hrow, beq_iff_eq.mp hlife, rfl, checkTransition_active hcheck⟩
  · obtain ⟨⟨⟩, -, h⟩ := Except.of_bind_ok h
    obtain ⟨_, -, h⟩ := Except.of_bind_ok h
    obtain ⟨_, -, h⟩ := Except.of_bind_ok h
    cases h

/-! ### What the tables have afterwards -/

lemma activation?_replaceLifecycle (record : LifecycleRecord) :
    (store.replaceLifecycle definitionId record tables).activation? definitionId store.scope =
      some ⟨definitionId, store.scope, record.revision, record.state == "active",
        record.generation, some record⟩ := by
  have hothers : (tables.activations.filter fun row =>
      !(row.checkId == definitionId && row.activationScope == store.scope)).find?
        (fun row => row.checkId == definitionId && row.activationScope == store.scope) = none := by
    rw [List.find?_eq_none]
    intro row hmem hrow
    rw [List.mem_filter, hrow] at hmem
    exact absurd hmem.2 Bool.false_ne_true
  show List.find? _ (_ ++ [_]) = _
  rw [List.find?_append]
  show Option.or (List.find? _ (List.filter _ tables.activations)) _ = _
  rw [hothers, Option.none_or, List.find?_cons_of_pos]
  rw [beq_self_eq_true, beq_self_eq_true]
  rfl

lemma finished_of_replaceLifecycle {row : CandidateRow}
    (hmem : row ∈ (store.replaceLifecycle definitionId record tables).candidates)
    (hof : store.ofDefinition definitionId row = true) : row.state.unfinished = false := by
  obtain ⟨old, -, hrow⟩ := List.mem_map.mp hmem
  split_ifs at hrow with hcond
  · rw [← hrow]
    rfl
  · dsimp only at hcond
    rw [hrow, hof, Bool.true_and, Bool.not_eq_true] at hcond
    exact hcond

lemma activation?_clearSessionData (tables : EvidenceTables) :
    tables.clearSessionData.activation? definitionId store.scope =
      (tables.activation? definitionId store.scope).map fun row =>
        { row with enabled := false, lifecycle := row.lifecycle.map LifecycleRecord.markRemoved } := by
  show List.find? _ (List.map _ _) = _
  rw [List.find?_map]
  rfl

lemma readLifecycle_active {compiled : Option CompiledDefinition}
    (h : store.readLifecycle definitionId compiled tables = .ok (.active active)) :
    ∃ row record, tables.activation? definitionId store.scope = some row ∧
      row.lifecycle = some record ∧ LifecycleTransition.names store definitionId record active := by
  unfold readLifecycle at h
  split at h
  · cases h
  rename_i record hrecord
  obtain ⟨row, hrow, hlife⟩ := Option.bind_eq_some_iff.mp hrecord
  obtain ⟨⟨⟩, hver, h⟩ := Except.of_bind_ok h
  obtain ⟨⟨⟩, -, h⟩ := Except.of_bind_ok h
  unfold savedState at h
  dsimp only at h
  split_ifs at h with hstate <;> try cases h
  split at h
  · cases h
  · cases h
    refine ⟨row, record, hrow, hlife, ?_, rfl, rfl⟩
    obtain ⟨version, generation, rev, state, scope, paths, root, pos, publication⟩ := record
    have hone : version = 1 := beq_iff_eq.mp (ensure_ok hver)
    dsimp only at hstate
    rw [hone, hstate]
    rfl

end StoreCheckStore

/-! ### Steps -/

namespace LifecycleLabel

def activation? (label : LifecycleLabel) : Option RegisteredActivation :=
  match label.reply with
  | .registered active | .loaded (.active active) => some active
  | _ => none

def record? (label : LifecycleLabel) : Option LifecycleRecord :=
  match label.reply with
  | .committed record => some record
  | _ => none

end LifecycleLabel

def LifecycleRun.saves (store : StoreCheckStore) (definitionId : String) (run : LifecycleRun)
    (active : RegisteredActivation) : Prop :=
  ∃ row record, run.tables.activation? definitionId store.scope = some row ∧
    row.lifecycle = some record ∧ LifecycleTransition.names store definitionId record active

/-- **What a step can do** to the row of the definition and to the activations it names. -/
inductive LifecycleCase (store : StoreCheckStore) (definitionId : String)
    (before after : LifecycleRun) (label : LifecycleLabel) : Prop
  /-- A change is committed. -/
  | committed (record : LifecycleRecord) (hreply : label.reply = .committed record)
      (htables : after.tables = store.replaceDefinition definitionId before.tables record)
      (hgeneration : record.generation =
        store.generationOf definitionId before.tables.toCheckTables + 1)
      (hpending : ∀ active ∈ after.registering, active ∈ before.registering ∨
        LifecycleTransition.names store definitionId record active)
  /-- The tables stay as they are. -/
  | kept (hrecord : label.record? = none) (htables : after.tables = before.tables)
      (hpending : ∀ active, active ∈ after.registering ∨ label.activation? = some active →
        active ∈ before.registering ∨ before.saves store definitionId active)
  | cleared (hreply : label.reply = .done) (htables : after.tables = before.tables.clearSessionData)
      (hpending : after.registering = before.registering)
  /-- Other transactions leave the activations alone. -/
  | worked (hreply : label.reply = .done)
      (hactivations : after.tables.activations = before.tables.activations)
      (hpending : after.registering = before.registering)

namespace LifecycleRun

variable {store : StoreCheckStore} {definitionId : String} {before after : LifecycleRun}
  {label : LifecycleLabel}

lemma kept_of_silent (hrecord : label.record? = none) (hnamed : label.activation? = none)
    (htables : after.tables = before.tables)
    (hpending : ∀ active ∈ after.registering, active ∈ before.registering ∨
      before.saves store definitionId active) :
    LifecycleCase store definitionId before after label := by
  refine .kept hrecord htables fun active hactive => ?_
  rcases hactive with hmem | hactive
  · exact hpending active hmem
  · rw [hnamed] at hactive
    cases hactive

lemma persist_case {op : LifecycleOp} {transition : LifecycleTransition} {committed : Bool}
    {reply : LifecycleReply}
    (h : before.persist store definitionId transition committed = (reply, after)) :
    LifecycleCase store definitionId before after ⟨op, reply⟩ := by
  unfold persist at h
  split at h
  · cases h
    exact kept_of_silent rfl rfl rfl fun _ hmem => .inl hmem
  · rename_i hchange
    cases h
    refine kept_of_silent rfl rfl rfl fun active hmem => ?_
    rcases List.mem_append.mp hmem with hmem | hmem
    · exact .inr (StoreCheckStore.lifecycleChange_none hchange (Option.mem_toList.mp hmem))
    · exact .inl hmem
  · rename_i record hchange
    obtain ⟨hgeneration, hnames⟩ := StoreCheckStore.lifecycleChange_some hchange
    split_ifs at h
    · cases h
      exact kept_of_silent rfl rfl rfl fun _ hmem => .inl hmem
    · cases h
      refine .committed record rfl rfl hgeneration fun active hmem => ?_
      rcases List.mem_append.mp hmem with hmem | hmem
      · exact .inr (hnames active (Option.mem_toList.mp hmem))
      · exact .inl hmem

lemma step_cases (h : (definitionLifecycle store definitionId).step before label after) :
    LifecycleCase store definitionId before after label := by
  obtain ⟨op, reply⟩ := label
  change before.apply store definitionId op = some (reply, after) at h
  cases op with
  | reconcile prev definition projectRoot bootstrapHead bootstrapPublication committed =>
    exact persist_case (Option.some.inj h)
  | activate transition committed => exact persist_case (Option.some.inj h)
  | register index =>
    obtain ⟨active, hactive, h⟩ := Option.map_eq_some_iff.mp h
    obtain ⟨hreply, rfl⟩ := Prod.mk.inj h
    have hmem : active ∈ before.registering := List.mem_of_getElem? hactive
    unfold register at hreply
    split at hreply
    · cases hreply
      exact kept_of_silent rfl rfl rfl fun _ hmem => .inl (List.mem_of_mem_eraseIdx hmem)
    · cases hreply
      refine .kept rfl rfl fun other hother => .inl ?_
      rcases hother with hother | hother
      · exact List.mem_of_mem_eraseIdx hother
      · cases hother
        exact hmem
  | load compiled =>
    unfold apply at h
    dsimp only at h
    split at h
    · cases h
      exact kept_of_silent rfl rfl rfl fun _ hmem => .inl hmem
    · rename_i state hload
      cases h
      refine .kept rfl rfl fun active hactive => ?_
      rcases hactive with hmem | hactive
      · exact .inl hmem
      · cases state with
        | active loaded =>
          cases hactive
          exact .inr (StoreCheckStore.readLifecycle_active hload)
        | uncompiled _ | inactive _ _ _ _ _ _ | removed _ => cases hactive
  | restart =>
    cases h
    exact kept_of_silent rfl rfl rfl fun _ hmem => absurd hmem List.not_mem_nil
  | clear =>
    cases h
    exact .cleared rfl rfl rfl
  | work tables =>
    cases h
    exact .worked rfl rfl rfl

end LifecycleRun

/-! ### Runs -/

def committedRecords (labels : List LifecycleLabel) : List LifecycleRecord :=
  labels.filterMap LifecycleLabel.record?

def namedActivations (labels : List LifecycleLabel) : List RegisteredActivation :=
  labels.filterMap LifecycleLabel.activation?

/-- The activation says what a committed record says. -/
def NamedBy (store : StoreCheckStore) (definitionId : String) (labels : List LifecycleLabel)
    (active : RegisteredActivation) : Prop :=
  ∃ record ∈ committedRecords labels,
    LifecycleTransition.names store definitionId record active

/-- Committed records, the row of the definition and the named activations agree. -/
structure Generations (store : StoreCheckStore) (definitionId : String)
    (labels : List LifecycleLabel) (run : LifecycleRun) : Prop where
  below : ∀ record ∈ committedRecords labels,
    record.generation ≤ store.generationOf definitionId run.tables.toCheckTables
  ordered : (committedRecords labels).Pairwise fun earlier later =>
    earlier.generation < later.generation
  saved : ∀ row, run.tables.activation? definitionId store.scope = some row →
    ∀ record, row.lifecycle = some record → record.state = "active" →
      record ∈ committedRecords labels
  pending : ∀ active ∈ run.registering, NamedBy store definitionId labels active
  named : ∀ active ∈ namedActivations labels, NamedBy store definitionId labels active

namespace Generations

variable {store : StoreCheckStore} {definitionId : String} {run after : LifecycleRun}
  {labels : List LifecycleLabel} {label : LifecycleLabel}

lemma fresh (store : StoreCheckStore) (definitionId : String) (tables : EvidenceTables) :
    Generations store definitionId [] (.fresh store definitionId tables) where
  below _ hmem := absurd hmem List.not_mem_nil
  ordered := .nil
  saved row hrow := by
    have hmem := List.mem_of_find?_eq_some hrow
    have hkey := List.find?_some hrow
    have hother := (List.mem_filter.mp hmem).2
    rw [hkey] at hother
    exact absurd hother Bool.false_ne_true
  pending _ hmem := absurd hmem List.not_mem_nil
  named _ hmem := absurd hmem List.not_mem_nil

lemma committedRecords_snoc (labels : List LifecycleLabel) (label : LifecycleLabel) :
    committedRecords (labels ++ [label]) = committedRecords labels ++ label.record?.toList := by
  unfold committedRecords
  rw [List.filterMap_append, List.filterMap_cons]
  cases label.record? <;> rfl

lemma namedActivations_snoc (labels : List LifecycleLabel) (label : LifecycleLabel) :
    namedActivations (labels ++ [label]) = namedActivations labels ++ label.activation?.toList := by
  unfold namedActivations
  rw [List.filterMap_append, List.filterMap_cons]
  cases label.activation? <;> rfl

variable {active : RegisteredActivation}

lemma namedBy_snoc
    (h : NamedBy store definitionId labels active) (label : LifecycleLabel) :
    NamedBy store definitionId (labels ++ [label]) active := by
  obtain ⟨record, hmem, hnames⟩ := h
  refine ⟨record, ?_, hnames⟩
  rw [committedRecords_snoc]
  exact List.mem_append_left _ hmem

lemma namedBy_of_saves (h : Generations store definitionId labels run)
    (hsaves : run.saves store definitionId active) :
    NamedBy store definitionId labels active := by
  obtain ⟨row, record, hrow, hlife, hnames⟩ := hsaves
  have hactive : record.state = "active" := by
    rw [← hnames.1]
    rfl
  exact ⟨record, h.saved row hrow record hlife hactive, hnames⟩

lemma activation?_replaceDefinition (tables : EvidenceTables) (record : LifecycleRecord) :
    (store.replaceDefinition definitionId tables record).activation? definitionId store.scope =
      some ⟨definitionId, store.scope, record.revision, record.state == "active",
        record.generation, some record⟩ :=
  StoreCheckStore.activation?_replaceLifecycle record

/-- **The generation of a step**: one more for a change, the same otherwise. -/
lemma step_generation (hcase : LifecycleCase store definitionId run after label) :
    store.generationOf definitionId after.tables.toCheckTables =
      store.generationOf definitionId run.tables.toCheckTables +
        if label.record?.isSome then 1 else 0 := by
  unfold StoreCheckStore.generationOf
  cases hcase with
  | committed record hreply htables hgeneration _ =>
    have hrecord : label.record? = some record := by
      unfold LifecycleLabel.record?
      rw [hreply]
    rw [htables, activation?_replaceDefinition, hrecord]
    exact hgeneration
  | kept hrecord htables _ =>
    rw [htables, hrecord]
    rfl
  | cleared hreply htables _ =>
    have hrecord : label.record? = none := by
      unfold LifecycleLabel.record?
      rw [hreply]
    rw [htables, StoreCheckStore.activation?_clearSessionData, hrecord]
    cases run.tables.activation? definitionId store.scope <;> rfl
  | worked hreply hactivations _ =>
    have hrecord : label.record? = none := by
      unfold LifecycleLabel.record?
      rw [hreply]
    unfold CheckTables.activation?
    rw [hactivations, hrecord]
    rfl

lemma step_record (hcase : LifecycleCase store definitionId run after label) (hrecord : label.record? = some record) :
    record.generation = store.generationOf definitionId run.tables.toCheckTables + 1 := by
  cases hcase with
  | committed record' hreply _ hgeneration _ =>
    unfold LifecycleLabel.record? at hrecord
    rw [hreply] at hrecord
    cases hrecord
    exact hgeneration
  | kept hnone _ _ =>
    rw [hnone] at hrecord
    cases hrecord
  | cleared hreply _ _ | worked hreply _ _ =>
    unfold LifecycleLabel.record? at hrecord
    rw [hreply] at hrecord
    cases hrecord

section

variable (h : Generations store definitionId labels run)
  (hcase : LifecycleCase store definitionId run after label)
include h hcase

lemma step_saved :
    ∀ row, after.tables.activation? definitionId store.scope = some row →
      ∀ record, row.lifecycle = some record → record.state = "active" →
        record ∈ committedRecords (labels ++ [label]) := by
  intro row hrow record hlife hactive
  rw [committedRecords_snoc]
  cases hcase with
  | committed record' hreply htables _ _ =>
    rw [htables, activation?_replaceDefinition, Option.some.injEq] at hrow
    rw [← hrow] at hlife
    cases hlife
    apply List.mem_append_right
    unfold LifecycleLabel.record?
    rw [hreply]
    exact List.mem_singleton_self record
  | kept _ htables _ =>
    rw [htables] at hrow
    exact List.mem_append_left _ (h.saved row hrow record hlife hactive)
  | cleared _ htables _ =>
    -- an edited record is removed
    rw [htables, StoreCheckStore.activation?_clearSessionData] at hrow
    obtain ⟨old, -, rfl⟩ := Option.map_eq_some_iff.mp hrow
    obtain ⟨saved, -, rfl⟩ := Option.map_eq_some_iff.mp hlife
    exact absurd hactive (by show "removed" ≠ "active"; decide)
  | worked _ hactivations _ =>
    unfold CheckTables.activation? at hrow
    rw [hactivations] at hrow
    exact List.mem_append_left _ (h.saved row hrow record hlife hactive)

lemma step_named (hactive : active ∈ after.registering ∨ label.activation? = some active) :
    NamedBy store definitionId (labels ++ [label]) active := by
  cases hcase with
  | committed record hreply _ _ hpending =>
    have hnone : label.activation? = none := by
      unfold LifecycleLabel.activation?
      rw [hreply]
    rcases hactive with hmem | hnamed
    · rcases hpending active hmem with hmem | hnames
      · exact namedBy_snoc (h.pending active hmem) label
      · refine ⟨record, ?_, hnames⟩
        rw [committedRecords_snoc]
        apply List.mem_append_right
        unfold LifecycleLabel.record?
        rw [hreply]
        exact List.mem_singleton_self record
    · rw [hnone] at hnamed
      cases hnamed
  | kept _ _ hpending =>
    rcases hpending active hactive with hmem | hsaves
    · exact namedBy_snoc (h.pending active hmem) label
    · exact namedBy_snoc (h.namedBy_of_saves hsaves) label
  | cleared hreply _ hpending | worked hreply _ hpending =>
    have hnone : label.activation? = none := by
      unfold LifecycleLabel.activation?
      rw [hreply]
    rcases hactive with hmem | hnamed
    · exact namedBy_snoc (h.pending active (hpending ▸ hmem)) label
    · rw [hnone] at hnamed
      cases hnamed

lemma step :
    Generations store definitionId (labels ++ [label]) after where
  below record hmem := by
    rw [step_generation hcase]
    rw [committedRecords_snoc] at hmem
    rcases List.mem_append.mp hmem with hmem | hmem
    · exact le_trans (h.below record hmem) (Nat.le_add_right _ _)
    · have hrecord := Option.mem_toList.mp hmem
      rw [step_record hcase hrecord, Option.isSome_iff_exists.mpr ⟨record, hrecord⟩]
      exact le_refl _
  ordered := by
    rw [committedRecords_snoc, List.pairwise_append]
    refine ⟨h.ordered, ?_, fun earlier hmem later hlater => ?_⟩
    · cases label.record? with
      | none => exact .nil
      | some record => exact List.pairwise_singleton _ record
    · rw [step_record hcase (Option.mem_toList.mp hlater)]
      exact Nat.lt_succ_of_le (h.below earlier hmem)
  saved := step_saved h hcase
  pending active hmem := step_named h hcase (.inl hmem)
  named active hmem := by
    rw [namedActivations_snoc] at hmem
    rcases List.mem_append.mp hmem with hmem | hmem
    · exact namedBy_snoc (h.named active hmem) label
    · exact step_named h hcase (.inr (Option.mem_toList.mp hmem))

end

lemma of_run {tables : EvidenceTables}
    (hrun : (definitionLifecycle store definitionId).Run (.fresh store definitionId tables) labels
      after) : Generations store definitionId labels after := by
  have h := hrun.trace_invariant (I := fun labels run => Generations store definitionId labels run)
    (P := fun _ => True) (fun _ _ _ _ _ hstep h => h.step (LifecycleRun.step_cases hstep))
    (fun _ _ => trivial) (fresh store definitionId tables)
  rwa [List.nil_append] at h

end Generations

/-- **Generations name one activation for ever.**  The generation of a definition rises by
one with every change that is committed and stays otherwise; activations of one id are
the same definition at the same boundaries; a call that fails changes nothing in its
transaction; and behind a change no candidate of an earlier generation is unfinished. -/
theorem generations_name_activations {store : StoreCheckStore} {definitionId : String}
    {tables : EvidenceTables} {labels : List LifecycleLabel} {run : LifecycleRun}
    (hrun : (definitionLifecycle store definitionId).Run (.fresh store definitionId tables) labels
      run) :
    (∀ active ∈ namedActivations labels, ∀ other ∈ namedActivations labels,
      active.id = other.id → active.revision = other.revision ∧
        active.definitionScope = other.definitionScope ∧
        active.sourcePaths = other.sourcePaths ∧ active.projectRoot = other.projectRoot ∧
        active.bootstrapObservationPosition = other.bootstrapObservationPosition ∧
        active.bootstrapPublication = other.bootstrapPublication) ∧
    ∀ before label rest middle after, labels = before ++ label :: rest →
      (definitionLifecycle store definitionId).Run (.fresh store definitionId tables) before middle →
      (definitionLifecycle store definitionId).step middle label after →
      store.generationOf definitionId after.tables.toCheckTables =
        store.generationOf definitionId middle.tables.toCheckTables +
          (if label.record?.isSome then 1 else 0) ∧
      (∀ error, label.reply = .failed error → after.tables = middle.tables) ∧
      (label.record?.isSome → ∀ row ∈ after.tables.candidates,
        store.ofDefinition definitionId row →
        row.key.generation < store.generationOf definitionId after.tables.toCheckTables →
        row.state.unfinished = false) := by
  have hgenerations := Generations.of_run hrun
  refine ⟨?_, ?_⟩
  · intro active hactive other hother hid
    obtain ⟨record, hmem, hnames, -, -⟩ := hgenerations.named active hactive
    obtain ⟨record', hmem', hnames', -, -⟩ := hgenerations.named other hother
    have hgeneration : record.generation = record'.generation := by
      rw [← hnames, ← hnames']
      exact congrArg ActivationId.generation hid
    -- the generations of committed records are distinct
    have hnodup : ((committedRecords labels).map LifecycleRecord.generation).Nodup :=
      List.pairwise_map.mpr (hgenerations.ordered.imp fun hlt => ne_of_lt hlt)
    have hsame : LifecycleTransition.activeRecord active = LifecycleTransition.activeRecord other := by
      rw [hnames, hnames', List.inj_on_of_nodup_map hnodup hmem hmem' hgeneration]
    exact ⟨congrArg LifecycleRecord.revision hsame, congrArg LifecycleRecord.definitionScope hsame,
      congrArg LifecycleRecord.sourcePaths hsame, congrArg LifecycleRecord.projectRoot hsame,
      congrArg LifecycleRecord.bootstrapObservationPosition hsame,
      congrArg LifecycleRecord.bootstrapPublication hsame⟩
  · intro before label rest middle after _ _ hstep
    have hcase := LifecycleRun.step_cases hstep
    refine ⟨Generations.step_generation hcase, fun error hfailed => ?_,
      fun hchanged row hmem hof _ => ?_⟩
    · cases hcase with
      | kept _ htables _ => exact htables
      | committed _ hreply _ _ _ | cleared hreply _ _ | worked hreply _ _ =>
        rw [hreply] at hfailed
        cases hfailed
    · obtain ⟨record, hrecord⟩ := Option.isSome_iff_exists.mp hchanged
      cases hcase with
      | committed _ _ htables _ _ =>
        rw [htables] at hmem
        exact StoreCheckStore.finished_of_replaceLifecycle hmem hof
      | kept hnone _ _ =>
        rw [hnone] at hrecord
        cases hrecord
      | cleared hreply _ _ | worked hreply _ _ =>
        unfold LifecycleLabel.record? at hrecord
        rw [hreply] at hrecord
        cases hrecord

/-! ### A registration that comes late -/

def activateLabel : @LifecycleLabel asciiPlatform := letI := asciiPlatform
  ⟨.activate (.activated localActivation) true,
    .committed (LifecycleTransition.activeRecord localActivation)⟩

def removeLabel : @LifecycleLabel asciiPlatform := letI := asciiPlatform
  ⟨.activate (.removed 2) true,
    .committed ⟨1, 2, Vector.replicate 32 0, "removed", "global", [], none, 0, 0⟩⟩

def registerLabel : @LifecycleLabel asciiPlatform := letI := asciiPlatform
  ⟨.register 0, .registered localActivation⟩

def lateLabel : @LifecycleLabel asciiPlatform := letI := asciiPlatform
  ⟨.register 0, .failed ⟨"activation does not match durable generation and revision"⟩⟩

omit [Platform] in
/-- A registered activation is what was committed. -/
theorem generations_name_activations_registered : letI := asciiPlatform
    ∃ run, (definitionLifecycle (localStore "a") "check").Run
        (.fresh (localStore "a") "check" .empty) [activateLabel, registerLabel, removeLabel] run ∧
      (localStore "a").generationOf "check" run.tables.toCheckTables = 2 := by
  let platform := asciiPlatform
  have hbefore : ∃ middle after, (definitionLifecycle (localStore "a") "check").Run
      (.fresh (localStore "a") "check" .empty) [activateLabel, registerLabel] middle ∧
      (localStore "a").generationOf "check" middle.tables.toCheckTables = 1 ∧
      (definitionLifecycle (localStore "a") "check").step middle removeLabel after :=
    ⟨_, _, .cons rfl (.single rfl), rfl, rfl⟩
  obtain ⟨middle, after, hbefore, hone, hstep⟩ := hbefore
  have hrun := hbefore.snoc hstep
  refine ⟨after, hrun, ?_⟩
  rw [((generations_name_activations hrun).2 _ removeLabel [] middle after rfl hbefore hstep).1, hone]
  rfl

omit [Platform] in
/-- A call whose transaction has committed may fail to register, and its change stays. -/
theorem failed_activation_changes_row : letI := asciiPlatform
    ∃ before first after : LifecycleRun,
      (definitionLifecycle (localStore "a") "check").step before activateLabel first ∧
      (definitionLifecycle (localStore "a") "check").Run first [removeLabel, lateLabel] after ∧
      first.registering.map (·.id) = [localActivation.id] ∧
      before.tables.activation? "check" (localStore "a").scope = none ∧
      after.tables.activation? "check" (localStore "a").scope ≠ none := by
  let platform := asciiPlatform
  refine ⟨.fresh (localStore "a") "check" .empty, _, _, rfl, .cons rfl (.single rfl), rfl, rfl, ?_⟩
  intro hnone
  cases hnone

end Antiburn
