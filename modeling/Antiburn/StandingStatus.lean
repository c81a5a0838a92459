/-
A status that is shown as valid rests on current evidence.

`Stands` is what is true of a valid status: its generation is the active one, its
acceptance is the last one of its branch that wrote a status, and the messages its
candidate depends on are committed as they were frozen.  `Standing` adds what the next
acceptance needs to know of the watermarks.  One lemma keeps it through every
transaction that writes no status; the acceptance and the change of a lifecycle have
lemmas of their own.
-/
import Antiburn.StatusFrames
import Antiburn.Generations

namespace Antiburn

/-! ### Observations -/

section Observations

variable {codec : EvidenceCodec} {checkId checkId' : String} {scope scope' : ActivationScope}
  {rows : List ObservationRow} {observation : ObservationRow} {dependency : DependencyRow}

def RevisionsFit (codec : EvidenceCodec) (rows : List ObservationRow) : Prop :=
  ∀ row ∈ rows, row.nativeRevision.isNone = codec.sessionEvent row.payloadJson

lemma revisionsFit_row (codec : EvidenceCodec) (checkId : String) (scope : ActivationScope)
    (record : PageObservation) : (record.row codec checkId scope).nativeRevision.isNone =
      codec.sessionEvent (record.row codec checkId scope).payloadJson := by
  show (if codec.sessionEvent record.payload then none else some record.nativeRevision).isNone =
    codec.sessionEvent record.payload
  cases codec.sessionEvent record.payload <;> rfl

lemma revisionsFit_saveObservation (h : RevisionsFit codec rows) (record : PageObservation) :
    RevisionsFit codec (saveObservation (record.row codec checkId scope) rows) := by
  intro row hmem
  rcases mem_upsert hmem with rfl | ⟨hold, -⟩
  · exact revisionsFit_row codec checkId scope record
  · exact h row hold

lemma standsOn_row {record : PageObservation} (hchang : record.changes observation = false)
    (hfits : observation.nativeRevision.isNone = codec.sessionEvent observation.payloadJson) :
    dependency.standsOn codec (record.row codec checkId scope) =
      dependency.standsOn codec observation := by
  simp only [PageObservation.changes, Bool.or_eq_false_iff, bne_eq_false_iff_eq] at hchang
  obtain ⟨⟨⟨⟨⟨⟨hsession, hformat⟩, -⟩, hrevision⟩, hversion⟩, hremoved⟩, hpay⟩ := hchang
  have hsame : coalesceRevision (record.row codec checkId scope).nativeRevision =
      coalesceRevision observation.nativeRevision := by
    show coalesceRevision (if codec.sessionEvent record.payload then none
      else some record.nativeRevision) = _
    rw [← hpay, ← hfits]
    cases hold : observation.nativeRevision with
    | none => rfl
    | some revision =>
      rw [hold] at hrevision
      exact hrevision.symm
  unfold DependencyRow.standsOn
  rw [hsame, hsession, hformat, hversion, hremoved, hpay]
  rfl

/-- **A dependency on an observation that the records do not change stands.** -/
lemma standsOn_observed {records : List PageObservation} (hfits : RevisionsFit codec rows)
    (hfound : rows.find? (observationOf checkId' scope' dependency.observationId) =
      some observation)
    (hstands : dependency.standsOn codec observation = true)
    (hnot : checkId' = checkId → scope' = scope →
      (dependency.observationId, dependency.session) ∉
        changedObservations codec checkId scope rows records) :
    ∃ observation', (records.foldl (fun rows record =>
        saveObservation (record.row codec checkId scope) rows) rows).find?
          (observationOf checkId' scope' dependency.observationId) = some observation' ∧
      dependency.standsOn codec observation' = true := by
  induction records generalizing rows observation with
  | nil => exact ⟨observation, hfound, hstands⟩
  | cons record records ih =>
    rw [changedObservations] at hnot
    have hrest : checkId' = checkId → scope' = scope →
        (dependency.observationId, dependency.session) ∉ changedObservations codec checkId scope
          (saveObservation (record.row codec checkId scope) rows) records := by
      intro hcheck hscope hmem
      refine hnot hcheck hscope ?_
      split
      · split_ifs
        · exact .tail _ hmem
        · exact hmem
      · exact hmem
    by_cases hsame : checkId' = checkId ∧ scope' = scope ∧
        dependency.observationId = record.observationId
    · obtain ⟨rfl, rfl, hid⟩ := hsame
      have hchang : record.changes observation = false := by
        cases hchang : record.changes observation with
        | false => rfl
        | true =>
          -- the change names the session that the dependency is of
          refine absurd ?_ (hnot rfl rfl)
          rw [← hid, hfound]
          dsimp only
          rw [if_pos hchang]
          simp only [DependencyRow.standsOn, Bool.and_eq_true, beq_iff_eq] at hstands
          rw [hstands.1.1.1.1.1.1]
          exact .head _
      have hrow : dependency.standsOn codec (record.row codec checkId' scope') = true :=
        (standsOn_row hchang (hfits _ (List.mem_of_find?_eq_some hfound))).trans hstands
      refine ih (revisionsFit_saveObservation hfits record) ?_ hrow hrest
      refine find?_upsert_self ?_ ?_ rows
      · rw [hid]
        simp only [observationOf, PageObservation.row, beq_self_eq_true, Bool.and_self]
      · rw [hid]
        exact fun _ h => h
    · refine ih (revisionsFit_saveObservation hfits record) ?_ hstands hrest
      show (upsert _ _ _ rows).find? _ = _
      rw [find?_upsert_of_not]
      · exact hfound
      · cases hkey : observationOf checkId' scope' dependency.observationId
            (record.row codec checkId scope) with
        | false => rfl
        | true =>
          simp only [observationOf, PageObservation.row, Bool.and_eq_true, beq_iff_eq] at hkey
          exact absurd ⟨hkey.1.1.symm, hkey.1.2.symm, hkey.2.symm⟩ hsame
      · intro row hrow
        cases hconfl : observationOf (record.row codec checkId scope).checkId
            (record.row codec checkId scope).activationScope
            (record.row codec checkId scope).observationId row with
        | false => rfl
        | true =>
          simp only [observationOf, PageObservation.row, Bool.and_eq_true, beq_iff_eq]
            at hrow hconfl
          exact absurd ⟨hrow.1.1.symm.trans hconfl.1.1, hrow.1.2.symm.trans hconfl.1.2,
            hrow.2.symm.trans hconfl.2⟩ hsame

end Observations

section Standing

variable [Platform]

/-! ### Standing statuses -/

namespace EvidenceTables

/-- The message that a dependency names is committed as it was frozen. -/
def Current (codec : EvidenceCodec) (tables : EvidenceTables) (key : BranchKey)
    (dependency : DependencyRow) : Prop :=
  ∃ observation, tables.observation? key.checkId key.activationScope dependency.observationId =
    some observation ∧ dependency.standsOn codec observation = true

structure Stands (codec : EvidenceCodec) (log : List Acceptance) (tables : EvidenceTables)
    (row : StatusEvidenceRow) : Prop where
  active : ∃ activation, tables.activation? row.key.checkId row.key.activationScope =
    some activation ∧ activation.generation = row.key.generation
  saved : ∃ candidate ∈ tables.candidates, candidate.candidateId = row.candidateId
  accepted : ∃ earlier acceptance later, log = earlier ++ acceptance :: later ∧
    acceptance.candidateId = row.candidateId ∧ acceptance.key = row.key ∧
    acceptance.wroteStatus = true ∧
    (∃ status ∈ tables.currentStatus, status.key = row.key ∧
      status.position = acceptance.position) ∧
    ∀ other ∈ later, other.wroteStatus = true → other.key.sameBranch row.key = false
  current : ∀ dependency ∈ tables.dependencies, dependency.candidateId = row.candidateId →
    dependency.ofMessage = true → tables.Current codec row.key dependency

/-- **The invariant.** -/
structure Standing (codec : EvidenceCodec) (log : List Acceptance) (tables : EvidenceTables) :
    Prop where
  sound : tables.toCheckTables.Sound
  revisions : RevisionsFit codec tables.observations
  /-- Nothing was accepted for a generation that is still to come. -/
  bounded : ∀ acceptance ∈ log, ∃ activation,
    tables.activation? acceptance.key.checkId acceptance.key.activationScope = some activation ∧
      acceptance.key.generation ≤ activation.generation
  /-- The watermark of a branch is not below what was accepted in the active generation. -/
  watermark : ∀ acceptance ∈ log, ∀ activation,
    tables.activation? acceptance.key.checkId acceptance.key.activationScope = some activation →
    activation.generation = acceptance.key.generation →
    ∃ position, tables.watermark acceptance.key = some position ∧ acceptance.position ≤ position
  increasing : log.Pairwise fun a b => a.key = b.key → a.position < b.position
  stands : ∀ row ∈ tables.statusEvidence, row.evidenceValid = true → tables.Stands codec log row

variable {codec : EvidenceCodec} {log : List Acceptance} {before after tables : EvidenceTables}
  {store : StoreCheckStore}

lemma standing_empty (codec : EvidenceCodec) : Standing codec [] .empty where
  sound := .empty
  revisions _ hmem := by cases hmem
  bounded _ hmem := by cases hmem
  watermark _ hmem := by cases hmem
  increasing := .nil
  stands _ hmem := by cases hmem

lemma activation?_of_same (hsame : before.toCheckTables.SameStatus after.toCheckTables)
    (checkId : String) (scope : ActivationScope) :
    after.activation? checkId scope = before.activation? checkId scope := by
  unfold CheckTables.activation?
  rw [hsame.activations]

/-- **A transaction that writes no status** keeps the invariant, if what it leaves of the
dependencies of a valid status is current. -/
lemma Standing.keep (h : Standing codec log before) (hsound : after.toCheckTables.Sound)
    (hmoves : before.toCheckTables.Moves after.toCheckTables)
    (hsame : before.toCheckTables.SameStatus after.toCheckTables)
    (hrevs : RevisionsFit codec after.observations)
    (hstatus : ∀ row ∈ after.statusEvidence, row.evidenceValid = true →
      row ∈ before.statusEvidence ∧ (before.Stands codec log row →
        ∀ dependency ∈ after.dependencies, dependency.candidateId = row.candidateId →
          dependency.ofMessage = true → after.Current codec row.key dependency)) :
    Standing codec log after where
  sound := hsound
  revisions := hrevs
  bounded acceptance hmem := by
    rw [activation?_of_same hsame]
    exact h.bounded acceptance hmem
  watermark acceptance hmem := by
    rw [activation?_of_same hsame]
    have hwatermark : after.watermark acceptance.key = before.watermark acceptance.key := by
      unfold CheckTables.watermark
      rw [hsame.watermarks]
    rw [hwatermark]
    exact h.watermark acceptance hmem
  increasing := h.increasing
  stands row hmem hvalid := by
    obtain ⟨hbefore, hcur⟩ := hstatus row hmem hvalid
    have hstands := h.stands row hbefore hvalid
    refine ⟨?_, ?_, ?_, hcur hstands⟩
    · rw [activation?_of_same hsame]
      exact hstands.active
    · obtain ⟨candidate, hcand, hid⟩ := hstands.saved
      obtain ⟨candidate', hcand', hmove⟩ := hmoves.forward candidate hcand
      exact ⟨candidate', hcand', hmove.identity.trans hid⟩
    · rw [hsame.currentStatus]
      exact hstands.accepted

lemma sound_moves_of_commit (op : CheckStoreOp) {checks checks' : CheckTables}
    (hsound : checks.Sound) (h : op.commit checks = .ok checks') :
    checks'.Sound ∧ checks.Moves checks' := by
  have hstep : checkStore.step checks ⟨op, op.granted checks⟩ checks' :=
    ⟨rfl, (CheckStoreOp.after_of_ok h).symm⟩
  obtain ⟨hsound', hmoves, -⟩ := checkStore_step hsound hstep
  exact ⟨hsound', hmoves⟩

/-- **Claims, answers, settlements and recovery keep the invariant.** -/
lemma Standing.checks (h : Standing codec log before) {op : CheckStoreOp}
    (hop : op.leavesEvidence = true) {checks : CheckTables}
    (hcommit : op.commit before.toCheckTables = .ok checks) :
    Standing codec log (before.withChecks checks) := by
  obtain ⟨hsound, hmoves⟩ := sound_moves_of_commit op h.sound hcommit
  exact h.keep hsound hmoves (CheckStoreOp.same_commit hop hcommit) h.revisions
    fun row hmem _ => ⟨hmem, fun hstands => hstands.current⟩

lemma Standing.revoke (h : Standing codec log before) (condition : StatusEvidenceRow → Bool) :
    Standing codec log (before.revoke condition) := by
  refine h.keep h.sound (.refl _) (.refl _) h.revisions fun row hmem hvalid => ?_
  obtain ⟨old, hold, rfl⟩ := List.mem_map.mp hmem
  split_ifs at hvalid ⊢ with hcondition
  exact ⟨hold, fun hstands => hstands.current⟩

/-! ### Pages -/

variable {id : CandidateId} {page : EvidencePage} {rows : List ObservationRow}

lemma candidateId_of_added (hmem : id ∈ page.added tables)
    {candidate : CandidateRow} (hcand : candidate ∈ tables.candidates) :
    candidate.candidateId ≠ id := by
  have hnone := (List.mem_filter.mp hmem).2
  rw [Option.isNone_iff_eq_none] at hnone
  intro hid
  exact List.find?_eq_none.mp hnone candidate hcand (decide_eq_true hid)

omit [Platform] in
variable {session : SessionKey} {row : DependencyRow}

lemma candidateId_of_freezeDependency {checkId : String}
    {scope : ActivationScope}
    {dependency : String × PageDependency}
    (h : freezeDependency codec rows checkId scope id session dependency = .ok row) :
    row.candidateId = id := by
  rcases dependency with ⟨observationId, version | ⟨version, format, revision, hash⟩ | version⟩
  · rw [freezeDependency] at h
    split at h
    · cases h
    · cases h
      rfl
  · cases h
    rfl
  · cases h
    rfl

lemma mem_freezeDependencies {frozen : List DependencyRow}
    (h : store.freezeDependencies codec page tables = .ok frozen)
    (hmem : row ∈ frozen) : row.candidateId ∈ page.added tables := by
  obtain ⟨id, hid, rows, hrows, hrow⟩ := Except.mem_flatMapM h hmem
  obtain ⟨dependency, -, hfrozen⟩ := Except.mem_mapM hrows hrow
  rw [candidateId_of_freezeDependency hfrozen]
  exact hid

lemma valid_of_persistEvidencePage {scope : ActivationScope}
    {row : StatusEvidenceRow}
    (hmem : row ∈ (before.revoke (page.revokes codec before scope)).statusEvidence)
    (hvalid : row.evidenceValid = true) :
    row ∈ before.statusEvidence ∧ page.revokes codec before scope row = false := by
  obtain ⟨old, hold, rfl⟩ := List.mem_map.mp hmem
  split_ifs at hvalid ⊢ with hrevokes
  exact ⟨hold, Bool.not_eq_true _ ▸ hrevokes⟩

/-- **A page keeps the invariant.** -/
lemma Standing.persistPage (h : Standing codec log before) {page : EvidencePage}
    (hpage : store.persistEvidencePage codec page before = .ok after) :
    Standing codec log after := by
  obtain ⟨checks, hchecks, hpage⟩ := Except.of_bind_ok hpage
  obtain ⟨frozen, hfrozen, hpage⟩ := Except.of_bind_ok hpage
  cases hpage
  obtain ⟨hsound, hmoves⟩ := sound_moves_of_commit
    (.persistPage store (page.publication codec before store.scope)) h.sound hchecks
  refine h.keep hsound hmoves (moved_persistPage hchecks).same ?_ fun row hmem hvalid => ?_
  · show RevisionsFit codec (page.observations.foldl _ before.observations)
    have hrevs := h.revisions
    generalize before.observations = rows at hrevs
    induction page.observations generalizing rows with
    | nil => exact hrevs
    | cons record records ih => exact ih _ (revisionsFit_saveObservation hrevs record)
  · obtain ⟨hbefore, hrevokes⟩ := valid_of_persistEvidencePage hmem hvalid
    refine ⟨hbefore, fun hstands dependency hdependency hid hmessage => ?_⟩
    -- the dependencies of a candidate that has a status are old ones
    have hold : dependency ∈ before.dependencies := by
      rcases List.mem_append.mp hdependency with hold | hnew
      · exact hold
      · obtain ⟨candidate, hcand, hsaved⟩ := hstands.saved
        exact absurd (hsaved.trans hid.symm)
          (candidateId_of_added (mem_freezeDependencies hfrozen hnew) hcand)
    obtain ⟨observation, hobservation, hstandsOn⟩ := hstands.current dependency hold hid hmessage
    refine standsOn_observed h.revisions hobservation hstandsOn fun hcheck hscope hchanged => ?_
    -- a change of the message revokes the status
    have hrevoked : page.revokes codec before store.scope row = true := by
      unfold EvidencePage.revokes
      simp only [Bool.and_eq_true, beq_iff_eq, Bool.or_eq_true]
      refine ⟨⟨hcheck, hscope⟩, .inl (List.any_eq_true.mpr ⟨_, hchanged, ?_⟩)⟩
      refine List.any_eq_true.mpr ⟨dependency, hold, ?_⟩
      simp only [Bool.and_eq_true, beq_iff_eq]
      exact ⟨⟨hid, trivial⟩, trivial⟩
    rw [hrevokes] at hrevoked
    cases hrevoked

/-! ### Startup -/

/-- What a snapshot leaves of the observations: the old ones are found as before. -/
structure Extends (codec : EvidenceCodec) (rows rows' : List ObservationRow) : Prop where
  found : ∀ p observation, rows.find? p = some observation → rows'.find? p = some observation
  revisions : RevisionsFit codec rows → RevisionsFit codec rows'

omit [Platform] in
lemma Extends.refl (rows : List ObservationRow) : Extends codec rows rows :=
  ⟨fun _ _ => id, id⟩

omit [Platform] in
lemma Extends.trans {rows' rows'' : List ObservationRow} (h : Extends codec rows rows')
    (h' : Extends codec rows' rows'') : Extends codec rows rows'' :=
  ⟨fun p observation hfound => h'.found p observation (h.found p observation hfound),
    h'.revisions ∘ h.revisions⟩

omit [Platform] in
lemma extends_saveSnapshot {checkId : String} {rows' : List ObservationRow}
    {observation : StoreCheckStore.SnapshotObservation}
    (h : store.saveSnapshot codec checkId rows observation = .ok rows') :
    Extends codec rows rows' := by
  obtain ⟨_, hcur, h⟩ := Except.of_bind_ok h
  obtain ⟨_, _, h⟩ := Except.of_bind_ok h
  cases h
  have hpay := ensure_ok hcur
  rw [Bool.and_eq_true, Bool.not_eq_true'] at hpay
  refine ⟨fun p found hfound => ?_, fun hfits row hmem => ?_⟩
  · rw [Table.insert, List.find?_append, hfound, Option.some_or]
  · rcases List.mem_append.mp hmem with hold | hnew
    · exact hfits row hold
    · rw [List.mem_singleton.mp hnew]
      exact hpay.2.symm

lemma candidate?_of_initializeRecent {checks checks' : CheckTables}
    {activation : RegisteredActivation} {branch : BranchId} {candidate : FrozenCandidate}
    (h : store.initializeRecent activation branch (some candidate) checks = .ok checks') :
    checks.candidate? candidate.fingerprint = none := by
  unfold StoreCheckStore.initializeRecent at h
  obtain ⟨_, _, h⟩ := Except.of_bind_ok h
  obtain ⟨attached, hattac, _⟩ := Except.of_bind_ok h
  unfold StoreCheckStore.attachCandidate at hattac
  obtain ⟨_, hnew, _⟩ := Except.of_bind_ok hattac
  exact Option.isNone_iff_eq_none.mp (ensure_ok hnew)

omit [Platform] in
lemma candidateId_of_freezeSnapshot {checkId : String} {observationId : String}
    (h : store.freezeSnapshot codec checkId rows id session observationId = .ok row) :
    row.candidateId = id := by
  unfold StoreCheckStore.freezeSnapshot at h
  split at h
  · cases h
  · split at h
    · cases h
    · cases h
      rfl

/-- **The start of a session keeps the invariant.** -/
lemma Standing.initializeRecent (h : Standing codec log before)
    {activation : RegisteredActivation} {branch : BranchId}
    {snapshot : List StoreCheckStore.SnapshotObservation}
    {candidate : Option (FrozenCandidate × List String)}
    (hrecent : store.initializeRecentEvidence codec activation branch session snapshot candidate
      before = .ok after) : Standing codec log after := by
  obtain ⟨observations, hobser, hrecent⟩ := Except.of_bind_ok hrecent
  obtain ⟨checks, hchecks, hrecent⟩ := Except.of_bind_ok hrecent
  obtain ⟨frozen, hfrozen, hrecent⟩ := Except.of_bind_ok hrecent
  cases hrecent
  have hextends : Extends codec before.observations observations :=
    Except.foldlM_rel Extends.refl (fun _ _ _ => .trans)
      (fun _ _ _ _ hsave => extends_saveSnapshot hsave) hobser
  obtain ⟨hsound, hmoves⟩ := sound_moves_of_commit
    (.initializeRecent store activation branch (candidate.map Prod.fst)) h.sound hchecks
  refine h.keep hsound hmoves (moved_initializeRecent hchecks).same
    (hextends.revisions h.revisions) fun row hmem _ => ⟨hmem, fun hstands => ?_⟩
  intro dependency hdependency hid hmessage
  have hold : dependency ∈ before.dependencies := by
    rcases List.mem_append.mp hdependency with hold | hnew
    · exact hold
    · cases candidate with
      | none =>
        cases hfrozen
        cases hnew
      | some attached =>
        obtain ⟨saved, hsaved, hsame⟩ := hstands.saved
        have hnone := candidate?_of_initializeRecent hchecks
        obtain ⟨_, -, hrow⟩ := Except.mem_mapM hfrozen hnew
        refine absurd ?_ (List.find?_eq_none.mp hnone saved hsaved)
        rw [hsame, ← hid, candidateId_of_freezeSnapshot hrow]
        exact decide_eq_true rfl
  obtain ⟨observation, hobservation, hstandsOn⟩ := hstands.current dependency hold hid hmessage
  exact ⟨observation, hextends.found _ _ hobservation, hstandsOn⟩

/-! ### Lifecycle -/

section Lifecycle

variable {definitionId checkId : String} {scope : ActivationScope} {record : LifecycleRecord}

lemma activation?_of_other (hother : ¬ (checkId = definitionId ∧ scope = store.scope)) :
    (store.replaceDefinition definitionId tables record).activation? checkId scope =
      tables.activation? checkId scope := by
  show ((tables.activations.filter _) ++ [_]).find? _ = tables.activations.find? _
  rw [List.find?_append, List.find?_singleton, if_neg, Option.or_none, find?_filter_of_imp]
  · intro row hrow
    simp only [Bool.and_eq_true, beq_iff_eq] at hrow
    rw [hrow.1, hrow.2]
    simpa only [Bool.not_eq_true', Bool.and_eq_false_imp, beq_iff_eq, beq_eq_false_iff_ne, ne_eq,
      not_and] using hother
  · simp only [Bool.and_eq_true, beq_iff_eq, not_and]
    exact fun hcheck hscope => hother ⟨hcheck.symm, hscope.symm⟩

/-- **A change of a lifecycle keeps the invariant.** -/
lemma Standing.replaceDefinition (h : Standing codec log before)
    (hgeneration : record.generation =
      store.generationOf definitionId before.toCheckTables + 1) :
    Standing codec log (store.replaceDefinition definitionId before record) := by
  have hsteps : before.toCheckTables.Steps
      (store.replaceLifecycle definitionId record before.toCheckTables) := by
    refine CheckTables.Steps.update _ fun row _ hrow => rowSteps_cancelled ?_
    rw [Bool.and_eq_true] at hrow
    exact hrow.2
  -- the generation of the definition is a new one
  have habove : ∀ acceptance ∈ log, acceptance.key.checkId = definitionId →
      acceptance.key.activationScope = store.scope →
        acceptance.key.generation < record.generation := by
    intro acceptance hmem hcheck hscope
    obtain ⟨activation, hactivation, hle⟩ := h.bounded acceptance hmem
    rw [hcheck, hscope] at hactivation
    rw [hgeneration, StoreCheckStore.generationOf, hactivation]
    exact Nat.lt_succ_of_le hle
  refine ⟨h.sound.steps hsteps, fun row hmem => ?_, fun acceptance hmem => ?_,
    fun acceptance hmem activation hactivation hsame => ?_, h.increasing, fun row hmem hvalid => ?_⟩
  · exact h.revisions row (List.mem_filter.mp hmem).1
  · by_cases hkey : acceptance.key.checkId = definitionId ∧
        acceptance.key.activationScope = store.scope
    · rw [hkey.1, hkey.2]
      exact ⟨_, StoreCheckStore.activation?_replaceLifecycle record,
        Nat.le_of_lt (habove acceptance hmem hkey.1 hkey.2)⟩
    · rw [activation?_of_other hkey]
      exact h.bounded acceptance hmem
  · by_cases hkey : acceptance.key.checkId = definitionId ∧
        acceptance.key.activationScope = store.scope
    · rw [hkey.1, hkey.2] at hactivation
      have hnew := (StoreCheckStore.activation?_replaceLifecycle record).symm.trans hactivation
      rw [← Option.some.inj hnew] at hsame
      exact absurd hsame (Nat.ne_of_gt (habove acceptance hmem hkey.1 hkey.2))
    · rw [activation?_of_other hkey] at hactivation
      exact h.watermark acceptance hmem activation hactivation hsame
  · obtain ⟨hold, hleft⟩ := List.mem_filter.mp hmem
    have hother : ¬ (row.key.checkId = definitionId ∧ row.key.activationScope = store.scope) := by
      simpa only [Bool.not_eq_true', Bool.and_eq_false_imp, beq_iff_eq, beq_eq_false_iff_ne,
        ne_eq, not_and] using hleft
    have hstands := h.stands row hold hvalid
    refine ⟨?_, ?_, ?_, fun dependency hdependency hid hmessage => ?_⟩
    · rw [activation?_of_other hother]
      exact hstands.active
    · obtain ⟨candidate, hcand, hid⟩ := hstands.saved
      obtain ⟨candidate', hcand', hmove⟩ := hsteps.moves.forward candidate hcand
      exact ⟨candidate', hcand', hmove.identity.trans hid⟩
    · obtain ⟨earlier, acceptance, later, hlog, hid, hkey, hwrote, ⟨status, hstatus, hkeys, hpos⟩,
        hlast⟩ := hstands.accepted
      refine ⟨earlier, acceptance, later, hlog, hid, hkey, hwrote, ⟨status, ?_, hkeys, hpos⟩, hlast⟩
      refine List.mem_filter.mpr ⟨hstatus, ?_⟩
      rw [hkeys]
      exact hleft
    · obtain ⟨observation, hobservation, hstandsOn⟩ :=
        hstands.current dependency hdependency hid hmessage
      refine ⟨observation, ?_, hstandsOn⟩
      refine (find?_filter_of_imp (fun other hfound => ?_) before.observations).trans hobservation
      simp only [Bool.and_eq_true, beq_iff_eq] at hfound
      rw [hfound.1.1, hfound.1.2]
      exact hleft

end Lifecycle

/-! ### Acceptance -/

omit [Platform] in
lemma sameBranch_iff {a b : BranchKey} : a.sameBranch b = true ↔
    a.checkId = b.checkId ∧ a.activationScope = b.activationScope ∧ a.branch = b.branch := by
  simp only [BranchKey.sameBranch, Bool.and_eq_true, beq_iff_eq, and_assoc]

omit [Platform] in
lemma eq_of_sameBranch {a b : BranchKey} (h : a.sameBranch b = true)
    (hgeneration : a.generation = b.generation) : a = b := by
  obtain ⟨hcheck, hscope, hbranch⟩ := sameBranch_iff.mp h
  cases a
  cases b
  simp only [BranchKey.mk.injEq]
  exact ⟨hcheck, hscope, hgeneration, hbranch⟩

lemma watermark_saveWatermark_self (checks : CheckTables) (key : BranchKey)
    (position : ObservationPosition) :
    (checks.saveWatermark key position).watermark key = some position := by
  unfold CheckTables.watermark CheckTables.saveWatermark
  rw [find?_upsert_self]
  · rfl
  · exact beq_self_eq_true key
  · intro row hrow
    rw [beq_iff_eq.mp hrow]
    exact sameBranch_iff.mpr ⟨rfl, rfl, rfl⟩

lemma watermark_saveWatermark_of_not (checks : CheckTables) {key other : BranchKey}
    (position : ObservationPosition) (hother : other.sameBranch key = false) :
    (checks.saveWatermark key position).watermark other = checks.watermark other := by
  unfold CheckTables.watermark CheckTables.saveWatermark
  rw [find?_upsert_of_not]
  · refine beq_eq_false_iff_ne.mpr fun heq => ?_
    rw [← heq, sameBranch_iff.mpr ⟨rfl, rfl, rfl⟩] at hother
    cases hother
  · intro row hrow
    rw [beq_iff_eq.mp hrow]
    exact hother

/-- What an acceptance that is committed found and wrote, with the evidence. -/
structure AcceptsEvidence (codec : EvidenceCodec) (view : AcceptanceView) (id : CandidateId)
    (accepted : BurnCheckAnswer) (candidate : CandidateRow) (before after : EvidenceTables) : Prop
    extends Accepts view id accepted candidate before.toCheckTables after.toCheckTables where
  observed : before.observationsCurrent codec id = true
  observations : after.observations = before.observations
  dependencies : after.dependencies = before.dependencies
  statusEvidence : ∀ row ∈ after.statusEvidence,
    row = ⟨candidate.key, id, true⟩ ∧ accepted.statusWrite.isSome = true ∨
      row ∈ before.statusEvidence ∧
        (accepted.statusWrite.isSome = true → row.key.sameBranch candidate.key = false)

def acceptanceOf (id : CandidateId) (accepted : BurnCheckAnswer) (candidate : CandidateRow) :
    Acceptance :=
  ⟨id, candidate.key, candidate.triggerPosition, accepted.statusWrite.isSome⟩

section Acceptance

variable {view : AcceptanceView} {id : CandidateId} {accepted : BurnCheckAnswer}
  {candidate : CandidateRow}

section

variable (hacc : AcceptsEvidence codec view id accepted candidate before after)
include hacc

lemma AcceptsEvidence.activation?_eq (checkId : String)
    (scope : ActivationScope) :
    after.activation? checkId scope = before.activation? checkId scope := by
  unfold CheckTables.activation?
  rw [hacc.activations]

lemma AcceptsEvidence.generation :
    ∃ activation, before.activation? candidate.key.checkId candidate.key.activationScope =
      some activation ∧ activation.generation = candidate.key.generation := by
  have hactive := hacc.active
  unfold CheckTables.generationActive at hactive
  rw [Option.any_eq_true] at hactive
  obtain ⟨activation, hactivation, hboth⟩ := hactive
  simp only [Bool.and_eq_true, beq_iff_eq] at hboth
  exact ⟨activation, hactivation, hboth.1⟩

end

lemma Standing.below (h : Standing codec log before)
    (hacc : AcceptsEvidence codec view id accepted candidate before after)
    {acceptance : Acceptance} (hmem : acceptance ∈ log) (hkey : acceptance.key = candidate.key) :
    acceptance.position < candidate.triggerPosition := by
  obtain ⟨activation, hactive, hgeneration⟩ := hacc.generation
  rw [← hkey] at hactive hgeneration
  obtain ⟨position, hposit, hle⟩ := h.watermark acceptance hmem activation hactive hgeneration
  rw [hkey] at hposit
  exact hle.trans_lt (hacc.above position hposit)

lemma AcceptsEvidence.watermark_eq
    (hacc : AcceptsEvidence codec view id accepted candidate before after) (key : BranchKey) :
    after.watermark key =
      (before.saveWatermark candidate.key candidate.triggerPosition).watermark key := by
  unfold CheckTables.watermark
  rw [hacc.watermarks]

section

variable (h : Standing codec log before)
  (hacc : AcceptsEvidence codec view id accepted candidate before after)
include h hacc

lemma Standing.watermark_accepted
    {acceptance : Acceptance} (hmem : acceptance ∈ log ++ [acceptanceOf id accepted candidate])
    {activation : ActivationRow}
    (hactivation : before.activation? acceptance.key.checkId acceptance.key.activationScope =
      some activation) (hgeneration : activation.generation = acceptance.key.generation) :
    ∃ position, after.watermark acceptance.key = some position ∧
      acceptance.position ≤ position := by
  rw [hacc.watermark_eq]
  by_cases hkey : acceptance.key = candidate.key
  · refine ⟨candidate.triggerPosition, ?_, ?_⟩
    · rw [hkey]
      exact watermark_saveWatermark_self _ _ _
    · rcases List.mem_append.mp hmem with hold | hnew
      · exact Nat.le_of_lt (h.below hacc hold hkey)
      · rw [List.mem_singleton.mp hnew]
        exact le_rfl
  · have hold : acceptance ∈ log := by
      rcases List.mem_append.mp hmem with hold | hnew
      · exact hold
      · refine absurd ?_ hkey
        rw [List.mem_singleton.mp hnew]
        rfl
    -- the branch has one key in the active generation
    have hother : acceptance.key.sameBranch candidate.key = false := by
      cases hsame : acceptance.key.sameBranch candidate.key with
      | false => rfl
      | true =>
        refine absurd (eq_of_sameBranch hsame ?_) hkey
        obtain ⟨hcheck, hscope, -⟩ := sameBranch_iff.mp hsame
        obtain ⟨active, hactive, hcand⟩ := hacc.generation
        rw [← hcheck, ← hscope, hactivation] at hactive
        rw [← hgeneration, ← hcand, Option.some.inj hactive]
    rw [watermark_saveWatermark_of_not _ _ hother]
    exact h.watermark acceptance hold activation hactivation hgeneration

lemma Standing.stands_new (hmoves : before.toCheckTables.Moves after.toCheckTables)
    (hwrites : accepted.statusWrite.isSome = true) :
    after.Stands codec (log ++ [acceptanceOf id accepted candidate])
      ⟨candidate.key, id, true⟩ where
  active := by
    rw [hacc.activation?_eq]
    exact hacc.generation
  saved := by
    obtain ⟨row, hrow, hmove⟩ := hmoves.forward candidate hacc.saved
    exact ⟨row, hrow, hmove.identity.trans hacc.identity⟩
  accepted := by
    refine ⟨log, acceptanceOf id accepted candidate, [], rfl, rfl, rfl, hwrites, ?_,
      fun _ hmem => nomatch hmem⟩
    obtain ⟨status, hstatus⟩ := Option.isSome_iff_exists.mp hwrites
    refine ⟨⟨candidate.key, status, candidate.triggerPosition⟩, ?_, rfl, rfl⟩
    rw [hacc.currentStatus, hstatus]
    exact mem_upsert_self _
  current dependency hdependency hid hmessage := by
    have hobs := hacc.observed
    unfold observationsCurrent at hobs
    rw [show before.candidate? id = some candidate by
      rw [← hacc.identity]
      exact Table.lookup_of_mem h.sound.nodup hacc.saved] at hobs
    rw [hacc.dependencies] at hdependency
    have hmem : dependency ∈ before.dependencies.filter fun row =>
        row.candidateId == id && row.ofMessage :=
      List.mem_filter.mpr ⟨hdependency, by rw [hid, hmessage, beq_self_eq_true]; rfl⟩
    have hcur := List.all_eq_true.mp hobs dependency hmem
    rw [Option.any_eq_true] at hcur
    obtain ⟨observation, hobservation, hstandsOn⟩ := hcur
    refine ⟨observation, ?_, hstandsOn⟩
    unfold observation?
    rw [hacc.observations]
    exact hobservation

end

lemma Stands.behind {row : StatusEvidenceRow} (hstands : before.Stands codec log row)
    (hacc : AcceptsEvidence codec view id accepted candidate before after)
    (hmoves : before.toCheckTables.Moves after.toCheckTables)
    (hother : accepted.statusWrite.isSome = true → row.key.sameBranch candidate.key = false) :
    after.Stands codec (log ++ [acceptanceOf id accepted candidate]) row where
  active := by
    rw [hacc.activation?_eq]
    exact hstands.active
  saved := by
    obtain ⟨old, hold, hid⟩ := hstands.saved
    obtain ⟨old', hold', hmove⟩ := hmoves.forward old hold
    exact ⟨old', hold', hmove.identity.trans hid⟩
  accepted := by
    obtain ⟨earlier, acceptance, later, hlog, hid, hkey, hwrote, ⟨status, hstatus, hkeys, hpos⟩,
      hlast⟩ := hstands.accepted
    refine ⟨earlier, acceptance, later ++ [acceptanceOf id accepted candidate], ?_, hid, hkey,
      hwrote, ⟨status, ?_, hkeys, hpos⟩, fun other hmem hother' => ?_⟩
    · rw [hlog, List.append_assoc, List.cons_append]
    · rw [hacc.currentStatus]
      cases hwrite : accepted.statusWrite with
      | none => exact hstatus
      | some write =>
        refine mem_upsert_of_not hstatus ?_
        rw [hkeys]
        exact hother (by rw [hwrite]; rfl)
    · rcases List.mem_append.mp hmem with hold | hnew
      · exact hlast other hold hother'
      · rw [List.mem_singleton.mp hnew] at hother' ⊢
        cases hsame : candidate.key.sameBranch row.key with
        | false => exact hsame
        | true =>
          obtain ⟨hcheck, hscope, hbranch⟩ := sameBranch_iff.mp hsame
          rw [← hother hother']
          exact (sameBranch_iff.mpr ⟨hcheck.symm, hscope.symm, hbranch.symm⟩).symm ▸ hsame
  current dependency hdependency hid hmessage := by
    rw [hacc.dependencies] at hdependency
    obtain ⟨observation, hobservation, hstandsOn⟩ :=
      hstands.current dependency hdependency hid hmessage
    refine ⟨observation, ?_, hstandsOn⟩
    unfold observation?
    rw [hacc.observations]
    exact hobservation

/-- **An acceptance keeps the invariant.** -/
lemma Standing.accept (h : Standing codec log before)
    (hacc : AcceptsEvidence codec view id accepted candidate before after)
    (hsound : after.toCheckTables.Sound)
    (hmoves : before.toCheckTables.Moves after.toCheckTables) :
    Standing codec (log ++ [acceptanceOf id accepted candidate]) after where
  sound := hsound
  revisions := by
    rw [hacc.observations]
    exact h.revisions
  bounded acceptance hmem := by
    rw [hacc.activation?_eq]
    rcases List.mem_append.mp hmem with hold | hnew
    · exact h.bounded acceptance hold
    · obtain ⟨activation, hactivation, hgeneration⟩ := hacc.generation
      rw [List.mem_singleton.mp hnew]
      exact ⟨activation, hactivation, hgeneration.ge⟩
  watermark acceptance hmem activation hactivation := by
    rw [hacc.activation?_eq] at hactivation
    exact h.watermark_accepted hacc hmem hactivation
  increasing := by
    refine List.pairwise_append.mpr ⟨h.increasing, List.pairwise_singleton _ _, ?_⟩
    intro acceptance hmem new hnew hkey
    rw [List.mem_singleton.mp hnew] at hkey ⊢
    exact h.below hacc hmem hkey
  stands row hmem hvalid := by
    rcases hacc.statusEvidence row hmem with ⟨rfl, hwrites⟩ | ⟨hold, hother⟩
    · exact h.stands_new hacc hmoves hwrites
    · exact (h.stands row hold hvalid).behind hacc hmoves hother

end Acceptance

/-! ### Runs -/

section Runs

variable {gate : RegisteredActivation → Bool} {view : AcceptanceView} {claimed : ClaimedCandidate}
  {accepted : BurnCheckAnswer} {outcome : AcceptanceOutcome}

section

variable (hsound : before.toCheckTables.Sound)
  (h : store.acceptEvidence codec gate view claimed accepted before = .ok (outcome, after))
include hsound h

lemma acceptEvidence_cases :
    (outcome ≠ .accepted ∧ before.toCheckTables.SameStatus after.toCheckTables ∧
      after = before.withChecks after.toCheckTables) ∨
    outcome = .accepted ∧ ∃ view candidate, before.candidate? claimed.id = some candidate ∧
      AcceptsEvidence codec view claimed.id accepted candidate before after := by
  obtain ⟨⟨outcome', checks⟩, hchecks, h⟩ := Except.of_bind_ok h
  dsimp only at h
  rcases accept_cases hchecks with ⟨hnot, hsame⟩ | ⟨rfl, candidate, hacc⟩
  · refine .inl ?_
    split at h
    · exact absurd rfl hnot
    · cases h
      exact ⟨hnot, hsame, rfl⟩
  · refine .inr ?_
    have hcand : before.candidate? claimed.id = some candidate := by
      rw [← hacc.identity]
      exact Table.lookup_of_mem hsound.nodup hacc.saved
    rw [hcand] at h
    cases hwrite : accepted.statusWrite with
    | none =>
      rw [hwrite] at h
      cases h
      refine ⟨rfl, _, candidate, hcand, hacc, hacc.current, rfl, rfl, ?_⟩
      intro row hmem
      exact .inr ⟨hmem, fun hsome => by rw [hwrite] at hsome; cases hsome⟩
    | some status =>
      rw [hwrite] at h
      cases h
      refine ⟨rfl, _, candidate, hcand, ⟨hacc.saved, hacc.identity, hacc.active,
        hacc.current, hacc.above, hacc.activations, hacc.watermarks,
        hacc.currentStatus⟩, hacc.current, rfl, rfl, ?_⟩
      intro row hmem
      rcases mem_upsert hmem with rfl | ⟨hold, hother⟩
      · exact .inl ⟨rfl, by rw [hwrite]; rfl⟩
      · exact .inr ⟨hold, fun _ => hother⟩

lemma sound_moves_of_acceptEvidence :
    after.toCheckTables.Sound ∧ before.toCheckTables.Moves after.toCheckTables := by
  obtain ⟨⟨outcome', checks⟩, hchecks, h⟩ := Except.of_bind_ok h
  dsimp only at h
  have hafter : after.toCheckTables = checks := by
    split at h
    · cases h
      rfl
    · cases h
      rfl
  rw [hafter]
  refine sound_moves_of_commit
    (.accept store gate { view with observationsCurrent := before.observationsCurrent codec } claimed
      accepted) hsound ?_
  show (store.accept _ _ _ _ _).map _ = _
  rw [hchecks]
  rfl

end

lemma acceptance?_accepted
    (h : store.acceptEvidence codec gate view claimed accepted before = .ok (.accepted, after)) :
    (EvidenceStoreOp.accept store gate view claimed accepted).acceptance? codec before =
      (before.candidate? claimed.id).map (acceptanceOf claimed.id accepted) := by
  unfold EvidenceStoreOp.acceptance?
  dsimp only
  rw [h]
  rfl

lemma acceptance?_of_not
    (h : ∀ after, store.acceptEvidence codec gate view claimed accepted before ≠
      .ok (.accepted, after)) :
    (EvidenceStoreOp.accept store gate view claimed accepted).acceptance? codec before = none := by
  unfold EvidenceStoreOp.acceptance?
  dsimp only
  split
  · next committed haccept => exact absurd haccept (h committed)
  · rfl

/-- **One transaction keeps the invariant.** -/
lemma Standing.step (h : Standing codec log before) {label : EvidenceStoreLabel}
    (hstep : (evidenceStore codec).step before label after) :
    Standing codec (log ++ label.acceptance.toList) after := by
  obtain ⟨hlabel, hcommit⟩ := hstep
  rw [hlabel]
  rcases hcommit with hcommit | ⟨⟨error, herror⟩, rfl⟩
  · cases hop : label.op with
    | checks op hleaves =>
      rw [hop] at hcommit
      obtain ⟨checks, hchecks, rfl⟩ := Except.map_ok_iff.mp hcommit
      show Standing codec (log ++ []) _
      rw [List.append_nil]
      exact h.checks hleaves hchecks
    | lifecycle store definitionId transition activation =>
      rw [hop] at hcommit
      obtain ⟨record, hrecord, rfl⟩ := Except.map_ok_iff.mp hcommit
      show Standing codec (log ++ []) _
      rw [List.append_nil]
      cases record with
      | none => exact h
      | some record =>
        exact h.replaceDefinition (StoreCheckStore.lifecycleChange_some hrecord).1
    | persistPage store page =>
      rw [hop] at hcommit
      show Standing codec (log ++ []) _
      rw [List.append_nil]
      exact h.persistPage hcommit
    | initializeRecent store activation branch session snapshot candidate =>
      rw [hop] at hcommit
      show Standing codec (log ++ []) _
      rw [List.append_nil]
      exact h.initializeRecent hcommit
    | revoke condition =>
      rw [hop] at hcommit
      cases hcommit
      show Standing codec (log ++ []) _
      rw [List.append_nil]
      exact h.revoke condition
    | accept store gate view claimed accepted =>
      rw [hop] at hcommit
      obtain ⟨⟨outcome, accepting⟩, haccept, rfl⟩ := Except.map_ok_iff.mp hcommit
      obtain ⟨hsound, hmoves⟩ := sound_moves_of_acceptEvidence h.sound haccept
      rcases acceptEvidence_cases h.sound haccept with
        ⟨hnot, hsame, hafter⟩ | ⟨rfl, view, candidate, hcand, hacc⟩
      · rw [acceptance?_of_not fun after haccept' => hnot ?_, Option.toList_none, List.append_nil]
        · dsimp only
          rw [hafter]
          exact h.keep hsound hmoves hsame h.revisions
            fun row hmem _ => ⟨hmem, fun hstands => hstands.current⟩
        · rw [haccept] at haccept'
          exact congrArg Prod.fst (Except.ok.inj haccept')
      · rw [acceptance?_accepted haccept, hcand]
        exact h.accept hacc hsound hmoves
  · have hnone : label.op.acceptance? codec after = none := by
      cases hop : label.op with
      | accept store gate view claimed accepted =>
        rw [hop] at herror
        refine acceptance?_of_not fun committed haccept => ?_
        change (store.acceptEvidence codec gate view claimed accepted after).map (·.2) = _ at herror
        rw [haccept] at herror
        cases herror
      | _ => rfl
    rw [hnone, Option.toList_none, List.append_nil]
    exact h

def acceptances (labels : List EvidenceStoreLabel) : List Acceptance :=
  labels.filterMap EvidenceStoreLabel.acceptance

lemma acceptances_snoc (labels : List EvidenceStoreLabel) (label : EvidenceStoreLabel) :
    acceptances (labels ++ [label]) = acceptances labels ++ label.acceptance.toList := by
  unfold acceptances
  rw [List.filterMap_append, List.filterMap_cons]
  cases label.acceptance <;> rfl

/-- **A run keeps the invariant.** -/
lemma standing_run {labels : List EvidenceStoreLabel}
    (hrun : (evidenceStore codec).Run .empty labels tables) :
    Standing codec (acceptances labels) tables := by
  have hinvariant : Standing codec (acceptances ([] ++ labels)) tables :=
    hrun.trace_invariant (I := fun labels tables => Standing codec (acceptances labels) tables)
      (P := fun _ => True)
      (fun labels _ label _ _ hstep h => by
        rw [acceptances_snoc]
        exact h.step hstep)
      (fun _ _ => trivial) (standing_empty codec)
  exact hinvariant

/-- **A valid status rests on current evidence**, in every state of every run.  Its assessment
was accepted for the active generation.  No other one of the branch that wrote a status is
of a later generation, or has a higher position in this one.  Every message that its
candidate depends on is committed as it was frozen.  And what is accepted under one key
is accepted in the order of its positions. -/
theorem valid_status_rests_on_current_evidence {labels : List EvidenceStoreLabel}
    (hrun : (evidenceStore codec).Run .empty labels tables) :
    (∀ row ∈ tables.statusEvidence, row.evidenceValid = true →
      (∃ activation, tables.activation? row.key.checkId row.key.activationScope = some activation ∧
        activation.generation = row.key.generation) ∧
      (∃ acceptance ∈ acceptances labels, acceptance.candidateId = row.candidateId ∧
        acceptance.key = row.key ∧ acceptance.wroteStatus = true ∧
        (∃ status ∈ tables.currentStatus, status.key = row.key ∧
          status.position = acceptance.position) ∧
        ∀ other ∈ acceptances labels, other.wroteStatus = true →
          other.key.sameBranch row.key = true →
            other.key.generation < row.key.generation ∨
              other.key = row.key ∧ other.position ≤ acceptance.position) ∧
      ∀ dependency ∈ tables.dependencies, dependency.candidateId = row.candidateId →
        dependency.ofMessage = true →
          ∃ observation, tables.observation? row.key.checkId row.key.activationScope
              dependency.observationId = some observation ∧
            observation.session = dependency.session ∧
            observation.sourceFormat = dependency.sourceFormat ∧
            coalesceRevision observation.nativeRevision =
              coalesceRevision dependency.nativeRevision ∧
            observation.evidenceVersion = dependency.evidenceVersion ∧
            observation.removed = false ∧
            codec.sha256 observation.payloadJson = dependency.payloadSha256) ∧
    (acceptances labels).Pairwise fun a b => a.key = b.key → a.position < b.position := by
  have h := standing_run hrun
  refine ⟨fun row hmem hvalid => ?_, h.increasing⟩
  have hstands := h.stands row hmem hvalid
  refine ⟨hstands.active, ?_, fun dependency hdependency hid hmessage => ?_⟩
  · obtain ⟨earlier, acceptance, later, hlog, hid, hkey, hwrote, hstatus, hlast⟩ := hstands.accepted
    have hincreasing := h.increasing
    rw [hlog] at hincreasing
    refine ⟨acceptance, ?_, hid, hkey, hwrote, hstatus, fun other hother hwrites hbranch => ?_⟩
    · rw [hlog]
      exact List.mem_append_right _ (.head _)
    obtain ⟨activation, hactivation, hgeneration⟩ := hstands.active
    obtain ⟨activation', hactivation', hle⟩ := h.bounded other hother
    obtain ⟨hcheck, hscope, -⟩ := sameBranch_iff.mp hbranch
    rw [hcheck, hscope, hactivation] at hactivation'
    rw [← Option.some.inj hactivation', hgeneration] at hle
    rcases hle.lt_or_eq with hlt | heq
    · exact .inl hlt
    have hsame : other.key = row.key := eq_of_sameBranch hbranch heq
    refine .inr ⟨hsame, ?_⟩
    rw [hlog] at hother
    rcases List.mem_append.mp hother with hearlier | hrest
    · have hlt := (List.pairwise_append.mp hincreasing).2.2 other hearlier acceptance (.head _)
        (hsame.trans hkey.symm)
      exact Nat.le_of_lt hlt
    · rcases List.mem_cons.mp hrest with rfl | hlater
      · exact le_rfl
      · rw [hlast other hlater hwrites] at hbranch
        cases hbranch
  · obtain ⟨observation, hobservation, hstandsOn⟩ :=
      hstands.current dependency hdependency hid hmessage
    simp only [DependencyRow.standsOn, Bool.and_eq_true, beq_iff_eq, Bool.not_eq_true'] at hstandsOn
    obtain ⟨⟨⟨⟨⟨⟨hsession, hformat⟩, hrevision⟩, hversion⟩, hremoved⟩, hpresent⟩, hhash⟩ := hstandsOn
    exact ⟨observation, hobservation, hsession, hformat, hrevision, hversion,
      hremoved.trans hpresent, hhash⟩

end Runs

end EvidenceTables

namespace EvidenceStoreOp

variable {codec : EvidenceCodec}

/-- The tables behind a transaction.  One that fails commits nothing. -/
def after (codec : EvidenceCodec) (op : EvidenceStoreOp) (tables : EvidenceTables) :
    EvidenceTables :=
  match op.commit codec tables with
  | .ok after => after
  | .error _ => tables

def labels (codec : EvidenceCodec) (tables : EvidenceTables) :
    List EvidenceStoreOp → List EvidenceStoreLabel
  | [] => []
  | op :: ops => ⟨op, op.acceptance? codec tables⟩ :: labels codec (op.after codec tables) ops

lemma run_labels (tables : EvidenceTables) (ops : List EvidenceStoreOp) :
    (evidenceStore codec).Run tables (labels codec tables ops)
      (ops.foldl (fun tables op => op.after codec tables) tables) := by
  induction ops generalizing tables with
  | nil => exact .nil tables
  | cons op ops ih =>
    refine .cons ⟨rfl, ?_⟩ (ih (op.after codec tables))
    unfold after
    cases hcommit : op.commit codec tables with
    | error error => exact .inr ⟨⟨error, rfl⟩, rfl⟩
    | ok after => exact .inl rfl

end EvidenceStoreOp

end Standing

def messagePage : EvidencePage where
  activation := localActivation
  accepted := true
  observations := [⟨1, ⟨"local", "agent", "session"⟩, "message", "jsonl", "native", 1, "v1", false,
    "text"⟩]
  invalidatedBranches := []
  resetBranches := []
  candidates := [localCandidate]
  session _ := ⟨"local", "agent", "session"⟩
  selectedPublicationHead _ := 1
  dependencies _ := [("message", .message "v1")]
  typedDependenciesCurrent _ := true

/-- The candidate of a page is claimed, answered and accepted with a status. -/
def statusOps : List (@EvidenceStoreOp asciiPlatform) := letI := asciiPlatform
  [.lifecycle (localStore "a") "check" (.activated localActivation) (some localActivation.id),
    .persistPage (localStore "a") messagePage,
    .checks (.claim (localStore "a") currentEvidence localCandidate 0 false) rfl,
    .checks (.startLocal (localStore "a") currentEvidence localClaim 0 0
      ⟨1, 0, EvaluationBudget.default⟩) rfl,
    .accept (localStore "a") (fun _ => true)
      { currentEvidence with paused := false, sourcePending := false }
      localClaim ⟨.localWork, .object [], some .success⟩]

def lengthCodec : EvidenceCodec where
  sha256 payload := Vector.replicate 32 (UInt8.ofNat payload.length)
  sessionEvent payload := payload == "session_start"

/-- A status that was accepted rests on the message of its page. -/
theorem valid_status_of_local_check : letI := asciiPlatform
    ∃ labels tables, (evidenceStore lengthCodec).Run .empty labels tables ∧
      (tables.statusEvidence.any fun row => row.evidenceValid && tables.dependencies.any
        fun dependency => dependency.candidateId == row.candidateId && dependency.ofMessage) = true ∧
      ∀ row ∈ tables.statusEvidence, row.evidenceValid = true → ∃ activation,
        tables.activation? row.key.checkId row.key.activationScope = some activation ∧
          activation.generation = row.key.generation := by
  let platform := asciiPlatform
  have hrun := @EvidenceStoreOp.run_labels _ lengthCodec .empty statusOps
  refine ⟨_, _, hrun, by decide, fun row hmem hvalid => ?_⟩
  exact ((EvidenceTables.valid_status_rests_on_current_evidence hrun).1 row hmem hvalid).1

end Antiburn
