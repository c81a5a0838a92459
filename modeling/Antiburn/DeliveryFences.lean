/-
Fences of the file deliveries.

A fence is written when a delivery is claimed and never again, and every commit,
failure and recovery takes it off.  So a fence that no row has is retired for good,
and the check of its claim fails from then on.  What remains is the one claim whose
fence the row has: its lease is the one it was granted with.
-/
import Antiburn.NativeFiles

namespace Antiburn

variable {ε : Type}

/-! ### What the check says -/

variable {row : DeliveryRow} {session : SessionRow}

namespace NativeFileStore

variable {store after : NativeFileStore ε}

structure Current (store : NativeFileStore ε) (claim : NativeFileClaim) (now : Int)
    (row : DeliveryRow) (session : SessionRow) : Prop where
  delivery : store.deliveries claim.key = some row
  found : store.sessions claim.key = some session
  fence : row.claimFence = some claim.fence
  cursor : row.cursorJson = claim.cursorJson
  lease : ∃ expires, row.leaseExpiresAtEpoch = some expires ∧ now < expires
  rowBinding : row.incarnation = claim.incarnation ∧ row.sourceLabel = claim.sourceLabel ∧
    row.cwd = claim.cwd
  sessionBinding : session.incarnation = claim.incarnation ∧
    session.sourceLabel = claim.sourceLabel ∧ session.cwd = some claim.cwd

variable {changed : Bool} {now : Int} {claim : NativeFileClaim}

lemma of_currentGeneration (h : store.currentGeneration claim now = some (row, session)) :
    store.Current claim now row session := by
  unfold currentGeneration at h
  obtain ⟨row', hrow, h⟩ := Option.bind_eq_some_iff.mp h
  obtain ⟨session', hsess, h⟩ := Option.bind_eq_some_iff.mp h
  split_ifs at h with hholds
  cases h
  unfold holds at hholds
  simp only [Bool.and_eq_true, beq_iff_eq] at hholds
  obtain ⟨⟨⟨⟨⟨⟨⟨⟨⟨⟨⟨⟨hfence, hcursor⟩, hlease⟩, hincn⟩, hincn'⟩, hlabel⟩, hlabel'⟩,
    -⟩, -⟩, hcwd⟩, hcwd'⟩, -⟩, -⟩ := hholds
  rw [Option.any_eq_true] at hlease
  obtain ⟨expires, hexpir, hlt⟩ := hlease
  exact ⟨hrow, hsess, hfence, hcursor, ⟨expires, hexpir, of_decide_eq_true hlt⟩,
    ⟨hincn, hlabel, hcwd⟩, ⟨hincn', hlabel', hcwd'⟩⟩

/-! ### What a commit writes -/

/-- A transaction of a holder: its row gives the fence back and stays where it is bound. -/
structure Commits (store : NativeFileStore ε) (key : SessionKey) (row row' : DeliveryRow)
    (after : NativeFileStore ε) : Prop where
  deliveries : after.deliveries = (store.setDelivery key row').deliveries
  sessions : after.sessions = store.sessions
  fenceSeq : after.fenceSeq = store.fenceSeq
  released : row'.claimFence = none
  binding : row'.incarnation = row.incarnation ∧ row'.sourceLabel = row.sourceLabel ∧
    row'.cwd = row.cwd

section

variable {page : NativeFilePage} {effects : PageEffects ε}

lemma commits_commitPage
    (h : store.commitPage claim page effects now row session = .ok (changed, after)) :
    ∃ row', store.Commits claim.key row row' after := by
  unfold commitPage at h
  obtain ⟨⟨⟩, -, h⟩ := Except.of_bind_ok h
  obtain ⟨⟨⟩, -, h⟩ := Except.of_bind_ok h
  obtain ⟨⟨originBoundary, evidence⟩, -, h⟩ := Except.of_bind_ok h
  obtain ⟨unsafeReason, -, h⟩ := Except.of_bind_ok h
  obtain ⟨⟨row₁, evidence₁⟩, hrow₁, h⟩ := Except.of_bind_ok h
  -- the row changes its error only before the other tables are written
  have hbind : row₁.incarnation = row.incarnation ∧ row₁.sourceLabel = row.sourceLabel ∧
      row₁.cwd = row.cwd := by
    unfold admittedRow at hrow₁
    split at hrow₁
    · obtain ⟨evidence₂, -, heq⟩ := Except.map_ok_iff.mp hrow₁
      cases heq
      exact ⟨rfl, rfl, rfl⟩
    · cases hrow₁
      split_ifs <;> exact ⟨rfl, rfl, rfl⟩
  obtain ⟨⟨consumed, evidence₂⟩, -, h⟩ := Except.of_bind_ok h
  obtain ⟨evidence₃, -, h⟩ := Except.of_bind_ok h
  dsimp only at h
  split_ifs at h
  · obtain ⟨cursor, -, h⟩ := Except.of_bind_ok h
    cases h
    exact ⟨retriedRow row₁ cursor now, rfl, rfl, rfl, rfl, hbind⟩
  · cases h
    exact ⟨publishedRow row₁ session claim page unsafeReason now, rfl, rfl, rfl, rfl, hbind⟩

lemma publish_cases
    (h : store.publishNativeFilePage claim page effects now = .ok (changed, after)) :
    (store.currentGeneration claim now = none ∧ changed = false ∧ after = store) ∨
      ∃ row session row', store.currentGeneration claim now = some (row, session) ∧
        store.Commits claim.key row row' after := by
  unfold publishNativeFilePage at h
  obtain ⟨⟨⟩, -, h⟩ := Except.of_bind_ok h
  split at h
  · rename_i hnone
    cases h
    exact .inl ⟨hnone, rfl, rfl⟩
  · rename_i row session hcurrent
    obtain ⟨row', hcommits⟩ := commits_commitPage h
    exact .inr ⟨row, session, row', hcurrent, hcommits⟩

end

lemma publish_refused (page : NativeFilePage)
    (effects : PageEffects ε) (hnone : store.currentGeneration claim now = none) :
    store.publishNativeFilePage claim page effects now =
      if page.cursorJson.utf8ByteSize ≤ MAX_CURSOR_BYTES then .ok (false, store)
      else .error ⟨"native file cursor exceeds its limit"⟩ := by
  unfold publishNativeFilePage
  rw [hnone]
  split_ifs with hsize
  · rw [decide_eq_true hsize]
    rfl
  · rw [decide_eq_false hsize]
    rfl

lemma fail_cases {failure : NativeFileReadError}
    {breakContinuity : ε → Except StoreError ε} {retryAt : Int}
    (h : store.failNativeFile claim failure breakContinuity now retryAt = .ok (changed, after)) :
    (store.currentGeneration claim now = none ∧ changed = false ∧ after = store) ∨
      ∃ row session row', store.currentGeneration claim now = some (row, session) ∧
        store.Commits claim.key row row' after ∧ row'.cursorJson = row.cursorJson := by
  unfold failNativeFile at h
  split at h
  · rename_i hnone
    cases h
    exact .inl ⟨hnone, rfl, rfl⟩
  · rename_i row session hcurrent
    obtain ⟨evidence, -, heq⟩ := Except.map_ok_iff.mp h
    cases heq
    exact .inr ⟨row, session, failedRow row claim failure now retryAt, hcurrent,
      ⟨rfl, rfl, rfl, rfl, rfl, rfl, rfl⟩, rfl⟩

structure Grants (store : NativeFileStore ε) (claim : NativeFileClaim) (now leaseSecs : Int)
    (session : SessionRow) (after : NativeFileStore ε) : Prop where
  found : store.sessions claim.key = some session
  fence : claim.fence = store.fenceSeq + 1
  made : claim = store.newClaim claim.key session (store.deliveries claim.key)
  cwd : session.cwd = some claim.cwd
  deliveries : after.deliveries = (store.setDelivery claim.key (store.claimedRow claim
    (store.deliveries claim.key) now leaseSecs)).deliveries
  sessions : after.sessions = store.sessions
  fenceSeq : after.fenceSeq = store.fenceSeq + 1

lemma claimNext_cases {choice : Option SessionKey} {leaseSecs : Int}
    {claim : Option NativeFileClaim}
    (h : store.claimNextNativeFile choice now leaseSecs = .ok (claim, after)) :
    (claim = none ∧ after = store) ∨
      ∃ granted session, claim = some granted ∧
        store.Grants granted now leaseSecs session after := by
  unfold claimNextNativeFile at h
  split at h
  · cases h
    exact .inl ⟨rfl, rfl⟩
  · rename_i key session hchoice
    obtain ⟨key', -, hsess⟩ := Option.bind_eq_some_iff.mp hchoice
    obtain ⟨session', hsess, heq⟩ := Option.map_eq_some_iff.mp hsess
    cases heq
    dsimp only at h
    split_ifs at h with hclaimable
    · cases h
      exact .inl ⟨rfl, rfl⟩
    · cases h
      refine .inr ⟨_, session, rfl, hsess, rfl, rfl, ?_, rfl, rfl, rfl⟩
      -- a session without a directory is no candidate
      simp only [Bool.not_eq_true, Bool.not_eq_false', claimable, Bool.and_eq_true,
        Option.any_eq_true] at hclaimable
      obtain ⟨⟨⟨⟨⟨-, cwd, hcwd, -⟩, -⟩, -⟩, -⟩, -⟩ := hclaimable
      show session.cwd = some (session.cwd.getD "")
      rw [hcwd]
      rfl

end NativeFileStore

/-! ### Steps -/

/-- **What a step can do** to deliveries, sessions, fences and grants. -/
inductive NativeFileCase (before after : NativeFileState ε) (label : NativeFileLabel ε) : Prop
  /-- A delivery is claimed. -/
  | granted (claim : NativeFileClaim) (choice : Option SessionKey) (now leaseSecs : Int)
      (session : SessionRow) (hop : label.op = .claimNext choice now leaseSecs)
      (hreply : label.reply = .claimed (some claim)) (hcommit : label.commit = none)
      (hgrants : before.store.Grants claim now leaseSecs session after.store)
      (hgranted : after.granted = ⟨claim, now + leaseSecs⟩ :: before.granted)
  /-- A holder commits a page or a failure. -/
  | committed (claim : NativeFileClaim) (now : Int) (row : DeliveryRow) (session : SessionRow)
      (row' : DeliveryRow) (hheld : before.heldBy claim = true)
      (hcommit : label.commit = some (.page claim row'.cursorJson) ∨
        label.commit = some (.failure claim) ∧ row'.cursorJson = row.cursorJson)
      (hreply : ∀ claim, label.reply ≠ .claimed (some claim))
      (hcurrent : before.store.currentGeneration claim now = some (row, session))
      (hcommits : before.store.Commits claim.key row row' after.store)
      (hgranted : after.granted = before.granted)
  /-- Claims are recovered. -/
  | recovered (hop : label.op = .recover) (hcommit : label.commit = none)
      (hreply : ∀ claim, label.reply ≠ .claimed (some claim))
      (hstore : after.store = before.store.recoverNativeFileClaims)
      (hgranted : after.granted = before.granted)
  | sessionChanged (key : SessionKey) (session : Option SessionRow)
      (hop : label.op = .changeSession key session) (hcommit : label.commit = none)
      (hreply : ∀ claim, label.reply ≠ .claimed (some claim))
      (hstore : after.store = before.store.changeSession key session)
      (hgranted : after.granted = before.granted)
  | forgot (cleared : SessionKey → Bool) (hop : label.op = .forget cleared)
      (hcommit : label.commit = none) (hreply : ∀ claim, label.reply ≠ .claimed (some claim))
      (hstore : after.store = before.store.forget cleared)
      (hgranted : after.granted = before.granted)
  /-- Neither deliveries nor sessions change. -/
  | idle (hcommit : label.commit = none) (hreply : ∀ claim, label.reply ≠ .claimed (some claim))
      (hop : label.op ≠ .recover)
      (hdeliveries : after.store.deliveries = before.store.deliveries)
      (hsessions : after.store.sessions = before.store.sessions)
      (hseq : before.store.fenceSeq ≤ after.store.fenceSeq)
      (hgranted : after.granted = before.granted)

variable {now : Int} {claim : NativeFileClaim}

namespace NativeFileState

variable {before after : NativeFileState ε} {label : NativeFileLabel ε}

lemma of_at? {state state' : NativeFileState ε} (h : state.at? now = some state') :
    state' = { state with clock := now } ∧ state.clock ≤ now := by
  unfold at? at h
  split_ifs at h with hclock
  cases h
  exact ⟨rfl, hclock⟩

lemma answer_case {state : NativeFileState ε}
    {result : Except StoreError (Bool × NativeFileStore ε)}
    {commit : NativeFileStore ε → NativeFileCommit} {reply : NativeFileReply}
    {committed : Option NativeFileCommit}
    (h : state.answer claim now result commit = (after, reply, committed)) :
    (∃ error, result = .error error ∧ after = state ∧ committed = none ∧
      reply = .answered (.error error)) ∨
    ∃ changed store, result = .ok (changed, store) ∧ after = { state with store } ∧
      reply = .answered (.ok changed) ∧ committed =
        if (state.store.currentGeneration claim now).isSome then some (commit store) else none := by
  unfold answer at h
  split at h
  · cases h
    exact .inl ⟨_, rfl, rfl, rfl, rfl⟩
  · cases h
    exact .inr ⟨_, _, rfl, rfl, rfl, rfl⟩

lemma step_cases (h : (nativeFiles ε).step before label after) :
    NativeFileCase before after label := by
  obtain ⟨op, reply, commit⟩ := label
  change before.apply op = some (after, reply, commit) at h
  have hansd : ∀ result claim, NativeFileReply.answered result ≠ .claimed (some claim) :=
    fun _ _ h => by cases h
  have hdone : ∀ claim, NativeFileReply.done ≠ .claimed (some claim) := fun _ h => by cases h
  cases op with
  | claimNext choice now leaseSecs =>
    obtain ⟨state, hat, h⟩ := Option.bind_eq_some_iff.mp h
    obtain ⟨rfl, -⟩ := of_at? hat
    dsimp only at h
    split at h
    · cases h
      exact .idle rfl (hansd _) nofun rfl rfl (le_refl _) rfl
    · rename_i store hclaim
      cases h
      rcases NativeFileStore.claimNext_cases hclaim with ⟨-, rfl⟩ | ⟨granted, session, hnone, -⟩
      · exact .idle rfl (fun _ h => by cases h) nofun rfl rfl (le_refl _) rfl
      · cases hnone
    · rename_i claim store hclaim
      cases h
      rcases NativeFileStore.claimNext_cases hclaim with ⟨hnone, -⟩ | ⟨granted, session, heq, hgrants⟩
      · cases hnone
      · cases heq
        exact .granted claim choice now leaseSecs session rfl rfl rfl hgrants rfl
  | publish claim page effects now =>
    obtain ⟨state, hat, h⟩ := Option.bind_eq_some_iff.mp h
    obtain ⟨rfl, -⟩ := of_at? hat
    dsimp only at h
    split_ifs at h with hheld
    rw [Bool.not_eq_true, Bool.not_eq_false'] at hheld
    rcases answer_case (Option.some.inj h) with
      ⟨error, -, rfl, rfl, rfl⟩ | ⟨changed, store, hresult, rfl, rfl, rfl⟩
    · exact .idle rfl (hansd _) nofun rfl rfl (le_refl _) rfl
    · rcases NativeFileStore.publish_cases hresult with
        ⟨hnone, -, rfl⟩ | ⟨row, session, row', hcurrent, hcommits⟩
      · refine .idle ?_ (hansd _) nofun rfl rfl (le_refl _) rfl
        dsimp only
        rw [hnone]
        rfl
      · refine .committed claim now row session row' hheld (.inl ?_) (hansd _) hcurrent
          hcommits rfl
        have hcursor : store.deliveries claim.key = some row' := by
          rw [hcommits.deliveries]
          exact if_pos rfl
        dsimp only
        rw [hcurrent, hcursor]
        rfl
  | fail claim failure breakContinuity now retryAt =>
    obtain ⟨state, hat, h⟩ := Option.bind_eq_some_iff.mp h
    obtain ⟨rfl, -⟩ := of_at? hat
    dsimp only at h
    split_ifs at h with hheld
    rw [Bool.not_eq_true, Bool.not_eq_false'] at hheld
    rcases answer_case (Option.some.inj h) with
      ⟨error, -, rfl, rfl, rfl⟩ | ⟨changed, store, hresult, rfl, rfl, rfl⟩
    · exact .idle rfl (hansd _) nofun rfl rfl (le_refl _) rfl
    · rcases NativeFileStore.fail_cases hresult with
        ⟨hnone, -, rfl⟩ | ⟨row, session, row', hcurrent, hcommits, hcursor⟩
      · refine .idle ?_ (hansd _) nofun rfl rfl (le_refl _) rfl
        dsimp only
        rw [hnone]
        rfl
      · refine .committed claim now row session row' hheld (.inr ⟨?_, hcursor⟩) (hansd _)
          hcurrent hcommits rfl
        dsimp only
        rw [hcurrent]
        rfl
  | recover =>
    cases h
    exact .recovered rfl rfl hdone rfl rfl
  | changeSession key session =>
    cases h
    exact .sessionChanged key session rfl rfl hdone rfl rfl
  | changeScope watched related =>
    cases h
    exact .idle rfl hdone nofun rfl rfl (le_refl _) rfl
  | forget cleared =>
    cases h
    exact .forgot cleared rfl rfl hdone rfl rfl
  | takeFence =>
    cases h
    refine .idle rfl hdone nofun rfl rfl ?_ rfl
    show before.store.fenceSeq ≤ before.store.fenceSeq + 1
    omega
  | changeEvidence evidence =>
    cases h
    exact .idle rfl hdone nofun rfl rfl (le_refl _) rfl

end NativeFileState

/-! ### Fences -/

namespace NativeFileState

structure Fenced (state : NativeFileState ε) : Prop where
  held : ∀ key row fence, state.store.deliveries key = some row → row.claimFence = some fence →
    ∃ grant ∈ state.granted, grant.claim.fence = fence ∧ grant.claim.key = key ∧
      row.leaseExpiresAtEpoch = some grant.expiresAtEpoch
  below : ∀ grant ∈ state.granted, grant.claim.fence ≤ state.store.fenceSeq
  ordered : state.granted.Pairwise fun later earlier => earlier.claim.fence < later.claim.fence

structure Retired (state : NativeFileState ε) (fence : Int) : Prop where
  below : fence ≤ state.store.fenceSeq
  gone : ∀ key row, state.store.deliveries key = some row → row.claimFence ≠ some fence

variable {state after : NativeFileState ε} {label : NativeFileLabel ε}

lemma fenced_fresh (store : NativeFileStore ε) (clock : Int) : (fresh store clock).Fenced where
  held _ _ _ hrow _ := by cases hrow
  below _ hmem := absurd hmem List.not_mem_nil
  ordered := .nil

lemma Fenced.unique (h : state.Fenced) {grant grant' : NativeFileGrant}
    (hmem : grant ∈ state.granted) (hmem' : grant' ∈ state.granted)
    (hfence : grant.claim.fence = grant'.claim.fence) : grant = grant' := by
  have hnodup : (state.granted.map (·.claim.fence)).Nodup :=
    List.pairwise_map.mpr (h.ordered.imp fun hlt => ne_of_gt hlt)
  exact List.inj_on_of_nodup_map hnodup hmem hmem' hfence

section

variable (h : NativeFileCase state after label)
include h

lemma step_fenceSeq :
    state.store.fenceSeq ≤ after.store.fenceSeq := by
  cases h with
  | granted _ _ _ _ _ _ _ _ hgrants _ =>
    rw [hgrants.fenceSeq]
    omega
  | committed _ _ _ _ _ _ _ _ _ hcommits _ => exact le_of_eq hcommits.fenceSeq.symm
  | recovered _ _ _ hstore _ | sessionChanged _ _ _ _ _ hstore _ | forgot _ _ _ _ hstore _ =>
    rw [hstore]
    exact le_refl _
  | idle _ _ _ _ _ hseq _ => exact hseq

lemma step_granted {grant : NativeFileGrant}
    (hmem : grant ∈ state.granted) : grant ∈ after.granted := by
  cases h with
  | granted _ _ _ _ _ _ _ _ _ hgranted =>
    rw [hgranted]
    exact List.mem_cons_of_mem _ hmem
  | committed _ _ _ _ _ _ _ _ _ _ hgranted | recovered _ _ _ _ hgranted
  | sessionChanged _ _ _ _ _ _ hgranted | forgot _ _ _ _ _ hgranted
  | idle _ _ _ _ _ _ hgranted => rwa [hgranted]

/-- **A fence on a row was there before, or is the one just granted.** -/
lemma step_fence {key : SessionKey}
    {fence : Int} (hrow : after.store.deliveries key = some row)
    (hfence : row.claimFence = some fence) :
    (∃ row₀, state.store.deliveries key = some row₀ ∧ row₀.claimFence = some fence ∧
      row₀.leaseExpiresAtEpoch = row.leaseExpiresAtEpoch) ∨
    ∃ grant ∈ after.granted, grant.claim.fence = fence ∧ grant.claim.key = key ∧
      row.leaseExpiresAtEpoch = some grant.expiresAtEpoch ∧ fence = state.store.fenceSeq + 1 := by
  cases h with
  | granted claim choice now leaseSecs session _ _ _ hgrants hgranted =>
    rw [hgrants.deliveries] at hrow
    by_cases hkey : key = claim.key
    · right
      have hclaimed : state.store.claimedRow claim (state.store.deliveries claim.key) now
          leaseSecs = row := Option.some.inj ((if_pos hkey).symm.trans hrow)
      refine ⟨⟨claim, now + leaseSecs⟩, by rw [hgranted]; exact List.mem_cons_self, ?_⟩
      have hwrit : row.claimFence = some claim.fence ∧
          row.leaseExpiresAtEpoch = some (now + leaseSecs) := by
        rw [← hclaimed]
        unfold NativeFileStore.claimedRow
        split <;> exact ⟨rfl, rfl⟩
      have heq : claim.fence = fence := Option.some.inj (hwrit.1.symm.trans hfence)
      exact ⟨heq, hkey.symm, hwrit.2, heq ▸ hgrants.fence⟩
    · exact .inl ⟨row, (if_neg hkey).symm.trans hrow, hfence, rfl⟩
  | committed claim _ _ _ row' _ _ _ _ hcommits _ =>
    rw [hcommits.deliveries] at hrow
    by_cases hkey : key = claim.key
    · have hwrit : row' = row := Option.some.inj ((if_pos hkey).symm.trans hrow)
      rw [← hwrit, hcommits.released] at hfence
      cases hfence
    · exact .inl ⟨row, (if_neg hkey).symm.trans hrow, hfence, rfl⟩
  | recovered _ _ _ hstore _ =>
    rw [hstore] at hrow
    obtain ⟨row₀, hrow₀, hrecov⟩ := Option.map_eq_some_iff.mp hrow
    split_ifs at hrecov with hclaimed
    · rw [← hrecov] at hfence
      cases hfence
    · exact .inl ⟨row, hrecov ▸ hrow₀, hfence, rfl⟩
  | sessionChanged changed session _ _ _ hstore _ =>
    rw [hstore] at hrow
    change (if key = changed ∧ session.isNone = true then none
      else state.store.deliveries key) = some row at hrow
    split_ifs at hrow
    exact .inl ⟨row, hrow, hfence, rfl⟩
  | forgot cleared _ _ _ hstore _ =>
    rw [hstore] at hrow
    change (if cleared key then none else state.store.deliveries key) = some row at hrow
    split_ifs at hrow
    exact .inl ⟨row, hrow, hfence, rfl⟩
  | idle _ _ _ hdeliveries _ _ _ => exact .inl ⟨row, hdeliveries ▸ hrow, hfence, rfl⟩

end

lemma Fenced.step (h : state.Fenced) (hcase : NativeFileCase state after label) :
    after.Fenced := by
  refine ⟨?_, ?_, ?_⟩
  · intro key row fence hrow hfence
    rcases step_fence hcase hrow hfence with ⟨row₀, hrow₀, hfence₀, hlease⟩ |
      ⟨grant, hmem, hgrant, hkey, hlease, -⟩
    · obtain ⟨grant, hmem, hgrant, hkey, hexpir⟩ := h.held key row₀ fence hrow₀ hfence₀
      exact ⟨grant, step_granted hcase hmem, hgrant, hkey, hlease ▸ hexpir⟩
    · exact ⟨grant, hmem, hgrant, hkey, hlease⟩
  · intro grant hmem
    cases hcase with
    | granted claim _ _ _ _ _ _ _ hgrants hgranted =>
      rw [hgranted] at hmem
      rw [hgrants.fenceSeq]
      rcases List.mem_cons.mp hmem with rfl | hmem
      · exact le_of_eq hgrants.fence
      · have hle := h.below grant hmem
        omega
    | committed _ _ _ _ _ _ _ _ _ hcommits hgranted =>
      rw [hgranted] at hmem
      rw [hcommits.fenceSeq]
      exact h.below grant hmem
    | recovered _ _ _ hstore hgranted | sessionChanged _ _ _ _ _ hstore hgranted
    | forgot _ _ _ _ hstore hgranted =>
      rw [hgranted] at hmem
      rw [hstore]
      exact h.below grant hmem
    | idle _ _ _ _ _ hseq hgranted =>
      rw [hgranted] at hmem
      exact le_trans (h.below grant hmem) hseq
  · cases hcase with
    | granted claim _ _ _ _ _ _ _ hgrants hgranted =>
      rw [hgranted]
      refine .cons (fun grant hmem => ?_) h.ordered
      have hle := h.below grant hmem
      show grant.claim.fence < claim.fence
      rw [hgrants.fence]
      omega
    | committed _ _ _ _ _ _ _ _ _ _ hgranted | recovered _ _ _ _ hgranted
    | sessionChanged _ _ _ _ _ _ hgranted | forgot _ _ _ _ _ hgranted
    | idle _ _ _ _ _ _ hgranted =>
      rw [hgranted]
      exact h.ordered

lemma Retired.step {fence : Int} (h : state.Retired fence)
    (hcase : NativeFileCase state after label) : after.Retired fence := by
  refine ⟨le_trans h.below (step_fenceSeq hcase), fun key row hrow hfence => ?_⟩
  rcases step_fence hcase hrow hfence with ⟨row₀, hrow₀, hfence₀, -⟩ | ⟨_, -, -, -, -, hnext⟩
  · exact h.gone key row₀ hrow₀ hfence₀
  · have hbelow := h.below
    omega

lemma Retired.not_current
    (h : state.Retired claim.fence) : state.store.currentGeneration claim now = none := by
  rw [Option.eq_none_iff_forall_ne_some]
  rintro ⟨row, session⟩ hcurrent
  have hrows := NativeFileStore.of_currentGeneration hcurrent
  exact h.gone claim.key row hrows.delivery hrows.fence

lemma Fenced.retired (h : state.Fenced) {grant : NativeFileGrant} (hmem : grant ∈ state.granted)
    (hgone : ∀ row, state.store.deliveries grant.claim.key = some row →
      row.claimFence ≠ some grant.claim.fence) : state.Retired grant.claim.fence := by
  refine ⟨h.below grant hmem, fun key row hrow hfence => ?_⟩
  obtain ⟨holder, hholder, heq, hkey, -⟩ := h.held key row _ hrow hfence
  obtain rfl := h.unique hholder hmem heq
  exact hgone row (hkey ▸ hrow) hfence

end NativeFileState

/-! ### Runs -/

namespace NativeFileLabel

def claimed (label : NativeFileLabel ε) : Option NativeFileClaim :=
  match label.reply with
  | .claimed claim => claim
  | _ => none

lemma claimed_eq_some {label : NativeFileLabel ε} :
    label.claimed = some claim ↔ label.reply = .claimed (some claim) := by
  unfold claimed
  constructor
  · intro h
    split at h
    · rename_i hreply
      rw [hreply, h]
    · cases h
  · intro h
    rw [h]

end NativeFileLabel

def nativeFileClaims (labels : List (NativeFileLabel ε)) : List NativeFileClaim :=
  labels.filterMap NativeFileLabel.claimed

def nativeFileCommits (labels : List (NativeFileLabel ε)) : List NativeFileCommit :=
  labels.filterMap NativeFileLabel.commit

namespace NativeFileState

variable {state after : NativeFileState ε} {labels : List (NativeFileLabel ε)}
  {label : NativeFileLabel ε}

structure Delivered (labels : List (NativeFileLabel ε)) (state : NativeFileState ε) : Prop where
  fenced : state.Fenced
  claims : state.granted.map NativeFileGrant.claim = (nativeFileClaims labels).reverse
  once : ((nativeFileCommits labels).map fun commit => commit.claim.fence).Nodup
  retired : ∀ commit ∈ nativeFileCommits labels, state.Retired commit.claim.fence

lemma step_claims (hcase : NativeFileCase state after label) :
    after.granted.map NativeFileGrant.claim =
      label.claimed.toList ++ state.granted.map NativeFileGrant.claim := by
  cases hcase with
  | granted claim _ _ _ _ _ hreply _ _ hgranted =>
    rw [NativeFileLabel.claimed_eq_some.mpr hreply, hgranted]
    rfl
  | committed _ _ _ _ _ _ _ hreply _ _ hgranted | recovered _ _ hreply _ hgranted
  | sessionChanged _ _ _ _ hreply _ hgranted | forgot _ _ _ hreply _ hgranted
  | idle _ hreply _ _ _ _ hgranted =>
    have hnone : label.claimed = none := by
      rw [Option.eq_none_iff_forall_ne_some]
      intro claim hclaimed
      exact hreply claim (NativeFileLabel.claimed_eq_some.mp hclaimed)
    rw [hnone, hgranted]
    rfl

variable {claim : NativeFileClaim} {grant : NativeFileGrant}

lemma grant_of_heldBy (h : state.heldBy claim = true) :
    ∃ grant ∈ state.granted, grant.claim = claim := by
  obtain ⟨grant, hmem, heq⟩ := List.any_eq_true.mp h
  exact ⟨grant, hmem, beq_iff_eq.mp heq⟩

lemma Fenced.commit (h : state.Fenced) (hcase : NativeFileCase state after label)
    {commit : NativeFileCommit} (hcommit : label.commit = some commit) :
    after.Retired commit.claim.fence ∧
      ∃ now row session, state.store.currentGeneration commit.claim now = some (row, session) := by
  have hfenced := h.step hcase
  cases hcase with
  | granted _ _ _ _ _ _ _ hnone _ _ | recovered _ hnone _ _ _ | sessionChanged _ _ _ hnone _ _ _
  | forgot _ _ hnone _ _ _ | idle hnone _ _ _ _ _ _ =>
    rw [hnone] at hcommit
    cases hcommit
  | committed claim now row session row' hheld hcommd _ hcurrent hcommits hgranted =>
    obtain rfl : commit.claim = claim := by
      rcases hcommd with hpage | ⟨hfail, -⟩
      · rw [hpage] at hcommit
        cases hcommit
        rfl
      · rw [hfail] at hcommit
        cases hcommit
        rfl
    obtain ⟨grant, hmem, heq⟩ := grant_of_heldBy hheld
    refine ⟨?_, now, row, session, hcurrent⟩
    rw [← heq]
    apply hfenced.retired (hgranted ▸ hmem)
    intro written hwrit
    rw [hcommits.deliveries, heq] at hwrit
    obtain rfl : row' = written := Option.some.inj ((if_pos rfl).symm.trans hwrit)
    rw [hcommits.released]
    nofun

lemma delivered_fresh (store : NativeFileStore ε) (clock : Int) :
    (fresh store clock).Delivered [] where
  fenced := fenced_fresh store clock
  claims := rfl
  once := .nil
  retired _ hmem := absurd hmem List.not_mem_nil

lemma Delivered.step (h : state.Delivered labels) (hcase : NativeFileCase state after label) :
    after.Delivered (labels ++ [label]) := by
  have hcommits : nativeFileCommits (labels ++ [label]) =
      nativeFileCommits labels ++ label.commit.toList := by
    unfold nativeFileCommits
    rw [List.filterMap_append, List.filterMap_cons]
    cases label.commit <;> rfl
  have hclaims : nativeFileClaims (labels ++ [label]) =
      nativeFileClaims labels ++ label.claimed.toList := by
    unfold nativeFileClaims
    rw [List.filterMap_append, List.filterMap_cons]
    cases label.claimed <;> rfl
  refine ⟨h.fenced.step hcase, ?_, ?_, ?_⟩
  · rw [step_claims hcase, hclaims, List.reverse_append, h.claims]
    cases label.claimed <;> rfl
  · rw [hcommits, List.map_append, List.nodup_append]
    refine ⟨h.once, ?_, ?_⟩
    · cases label.commit with
      | none => exact .nil
      | some commit => exact List.nodup_singleton _
    · intro fence hmem fence' hmem' heq
      obtain ⟨commit, hcommit, rfl⟩ := List.mem_map.mp hmem
      obtain ⟨commit', hcommit', rfl⟩ := List.mem_map.mp hmem'
      -- a fence that was committed is retired, so its claim is not current
      obtain ⟨-, now, row, session, hcurrent⟩ :=
        h.fenced.commit hcase (Option.mem_toList.mp hcommit')
      have hretir : state.Retired commit'.claim.fence := heq ▸ h.retired commit hcommit
      rw [hretir.not_current] at hcurrent
      cases hcurrent
  · intro commit hmem
    rw [hcommits] at hmem
    rcases List.mem_append.mp hmem with hmem | hmem
    · exact (h.retired commit hmem).step hcase
    · exact (h.fenced.commit hcase (Option.mem_toList.mp hmem)).1

lemma Delivered.run {store : NativeFileStore ε} {clock : Int}
    (hrun : (nativeFiles ε).Run (.fresh store clock) labels state) : state.Delivered labels := by
  have h := hrun.trace_invariant (I := fun labels state => state.Delivered labels)
    (P := fun _ => True) (fun _ _ _ _ _ hstep h => h.step (step_cases hstep)) (fun _ _ => trivial)
    (delivered_fresh store clock)
  rwa [List.nil_append] at h

/-! ### Lapsed claims -/

def BoundTo (session : SessionRow) (claim : NativeFileClaim) : Prop :=
  session.incarnation = claim.incarnation ∧ session.sourceLabel = claim.sourceLabel ∧
    session.cwd = some claim.cwd

/-- After the labels `before`, the claim no longer holds its delivery. -/
inductive Lapsed (before : List (NativeFileLabel ε)) (state : NativeFileState ε)
    (claim : NativeFileClaim) (now : Int) : Prop
  | expired (grant : NativeFileLabel ε) (choice : Option SessionKey) (grantedAt leaseSecs : Int)
      (hmem : grant ∈ before) (hop : grant.op = .claimNext choice grantedAt leaseSecs)
      (hclaimed : grant.claimed = some claim) (hexpired : grantedAt + leaseSecs ≤ now)
  | recovered (earlier : List (NativeFileLabel ε)) (grant : NativeFileLabel ε)
      (later : List (NativeFileLabel ε)) (hbefore : before = earlier ++ grant :: later)
      (hclaimed : grant.claimed = some claim) (label : NativeFileLabel ε) (hmem : label ∈ later)
      (hop : label.op = .recover)
  | superseded (earlier : List (NativeFileLabel ε)) (grant : NativeFileLabel ε)
      (later : List (NativeFileLabel ε)) (hbefore : before = earlier ++ grant :: later)
      (hclaimed : grant.claimed = some claim) (label : NativeFileLabel ε) (hmem : label ∈ later)
      (claim' : NativeFileClaim) (hclaimed' : label.claimed = some claim')
      (hkey : claim'.key = claim.key)
  | rebound (h : ∀ session, state.store.sessions claim.key = some session →
      ¬ BoundTo session claim)

lemma step_grant (hcase : NativeFileCase state after label)
    (hclaimed : label.claimed = some claim) :
    ∃ grant ∈ after.granted, grant.claim = claim ∧
      ∀ choice now leaseSecs, label.op = .claimNext choice now leaseSecs →
        grant.expiresAtEpoch = now + leaseSecs := by
  have hreply := NativeFileLabel.claimed_eq_some.mp hclaimed
  cases hcase with
  | granted claim' _ _ _ _ hop hreply' _ _ hgranted =>
    rw [hreply'] at hreply
    cases hreply
    refine ⟨_, hgranted ▸ List.mem_cons_self, rfl, fun choice now leaseSecs hop' => ?_⟩
    rw [hop] at hop'
    cases hop'
    rfl
  | committed _ _ _ _ _ _ _ hother _ _ _ | recovered _ _ hother _ _
  | sessionChanged _ _ _ _ hother _ _ | forgot _ _ _ hother _ _ | idle _ hother _ _ _ _ _ =>
    exact absurd hreply (hother claim)

lemma run_granted (hrun : (nativeFiles ε).Run state labels after)
    (hmem : grant ∈ state.granted) : grant ∈ after.granted :=
  hrun.invariant (I := fun state => grant ∈ state.granted)
    (fun _ _ _ hstep hmem => step_granted (step_cases hstep) hmem) hmem

lemma run_retired {fence : Int} (hrun : (nativeFiles ε).Run state labels after)
    (h : state.Retired fence) : after.Retired fence :=
  hrun.invariant (I := fun state => state.Retired fence)
    (fun _ _ _ hstep h => h.step (step_cases hstep)) h

lemma Fenced.recovered (h : state.Fenced) (hstep : (nativeFiles ε).step state label after)
    (hop : label.op = .recover) (hmem : grant ∈ state.granted) :
    after.Retired grant.claim.fence := by
  apply (h.step (step_cases hstep)).retired (step_granted (step_cases hstep) hmem)
  intro row hrow hfence
  change state.apply label.op = some (after, label.reply, label.commit) at hstep
  rw [hop] at hstep
  obtain ⟨rfl, -⟩ := Prod.mk.inj (Option.some.inj hstep)
  obtain ⟨row₀, -, hrecov⟩ := Option.map_eq_some_iff.mp hrow
  split_ifs at hrecov with hclaimed
  · rw [← hrecov] at hfence
    cases hfence
  · rw [hrecov, hfence] at hclaimed
    exact hclaimed rfl

lemma Fenced.superseded (h : state.Fenced) (hcase : NativeFileCase state after label)
    (hclaimed : label.claimed = some claim)
    (hmem : grant ∈ state.granted) (hkey : claim.key = grant.claim.key) :
    after.Retired grant.claim.fence := by
  apply (h.step hcase).retired (step_granted hcase hmem)
  intro row hrow hfence
  have hreply := NativeFileLabel.claimed_eq_some.mp hclaimed
  cases hcase with
  | granted claim' _ _ _ _ _ hreply' _ hgrants _ =>
    rw [hreply'] at hreply
    cases hreply
    rw [hgrants.deliveries] at hrow
    have hwrit : row.claimFence = some claim.fence := by
      rw [← Option.some.inj ((if_pos hkey.symm).symm.trans hrow)]
      unfold NativeFileStore.claimedRow
      split <;> rfl
    rw [hwrit, Option.some.injEq, hgrants.fence] at hfence
    have hbelow := h.below grant hmem
    omega
  | committed _ _ _ _ _ _ _ hother _ _ _ | recovered _ _ hother _ _
  | sessionChanged _ _ _ _ hother _ _ | forgot _ _ _ hother _ _ | idle _ hother _ _ _ _ _ =>
    exact absurd hreply (hother claim)

/-- **A lapsed claim is not current.** -/
lemma not_current_of_lapsed {store : NativeFileStore ε} {clock : Int}
    {before : List (NativeFileLabel ε)}
    (hrun : (nativeFiles ε).Run (.fresh store clock) before state)
    (h : Lapsed before state claim now) : state.store.currentGeneration claim now = none := by
  -- what the run did up to the grant, and behind it
  have hgranted : ∀ earlier grant later, before = earlier ++ grant :: later →
      grant.claimed = some claim → ∃ middle, ∃ held ∈ middle.granted, held.claim = claim ∧
        (∀ choice now leaseSecs, grant.op = .claimNext choice now leaseSecs →
          held.expiresAtEpoch = now + leaseSecs) ∧
        middle.Fenced ∧ (nativeFiles ε).Run middle later state := by
    intro earlier grant later hbefore hclaimed
    rw [hbefore] at hrun
    obtain ⟨first, hfirst, hrest⟩ := hrun.of_append
    obtain ⟨middle, hstep, hlater⟩ := hrest.of_cons
    obtain ⟨held, hmem, heq, hexpir⟩ := step_grant (step_cases hstep) hclaimed
    exact ⟨middle, held, hmem, heq, hexpir,
      (Delivered.run hfirst).fenced.step (step_cases hstep), hlater⟩
  -- and around a later label
  have hretir : ∀ (middle : NativeFileState ε) (later : List (NativeFileLabel ε)) label,
      label ∈ later → (nativeFiles ε).Run middle later state → ∀ held ∈ middle.granted,
      held.claim = claim → middle.Fenced → (∀ before after, (nativeFiles ε).step before label after →
        held ∈ before.granted → before.Fenced → after.Retired held.claim.fence) →
      state.store.currentGeneration claim now = none := by
    intro middle later label hmem hlater held hheld heq hfenced hretires
    obtain ⟨soon, last, rfl⟩ := List.append_of_mem hmem
    obtain ⟨middle', hsoon, hlast⟩ := hlater.of_append
    obtain ⟨after', hstep, hlast⟩ := hlast.of_cons
    have hfenced' : middle'.Fenced := hsoon.invariant (I := Fenced)
      (fun _ _ _ hstep h => h.step (step_cases hstep)) hfenced
    have h := run_retired hlast (hretires _ _ hstep (run_granted hsoon hheld) hfenced')
    exact (heq ▸ h).not_current
  cases h with
  | expired grant choice grantedAt leaseSecs hmem hop hclaimed hexpired =>
    obtain ⟨earlier, later, hbefore⟩ := List.append_of_mem hmem
    obtain ⟨middle, held, hheld, heq, hexpir, -, hlater⟩ :=
      hgranted earlier grant later hbefore hclaimed
    rw [Option.eq_none_iff_forall_ne_some]
    rintro ⟨row, session⟩ hcurrent
    have hrows := NativeFileStore.of_currentGeneration hcurrent
    obtain ⟨expires, hlease, hlt⟩ := hrows.lease
    have hfenced := (Delivered.run hrun).fenced
    obtain ⟨holder, hholder, hfence, -, hholderLease⟩ :=
      hfenced.held claim.key row claim.fence hrows.delivery hrows.fence
    -- the lease of the row is the one the claim was granted with
    obtain rfl : holder = held :=
      hfenced.unique hholder (run_granted hlater hheld) (by rw [hfence, heq])
    rw [hholderLease, Option.some.injEq, hexpir _ _ _ hop] at hlease
    omega
  | recovered earlier grant later hbefore hclaimed label hmem hop =>
    obtain ⟨middle, held, hheld, heq, -, hfenced, hlater⟩ :=
      hgranted earlier grant later hbefore hclaimed
    exact hretir middle later label hmem hlater held hheld heq hfenced
      fun _ _ hstep hheld hfenced => hfenced.recovered hstep hop hheld
  | superseded earlier grant later hbefore hclaimed label hmem claim' hclaimed' hkey =>
    obtain ⟨middle, held, hheld, heq, -, hfenced, hlater⟩ :=
      hgranted earlier grant later hbefore hclaimed
    exact hretir middle later label hmem hlater held hheld heq hfenced
      fun _ _ hstep hheld hfenced =>
        hfenced.superseded (step_cases hstep) hclaimed' hheld (heq ▸ hkey)
  | rebound h =>
    rw [Option.eq_none_iff_forall_ne_some]
    rintro ⟨row, session⟩ hcurrent
    have hrows := NativeFileStore.of_currentGeneration hcurrent
    exact h session hrows.found hrows.sessionBinding

end NativeFileState

def NativeFileOp.call : NativeFileOp ε → Option (NativeFileClaim × Int)
  | .publish claim _ _ now => some (claim, now)
  | .fail claim _ _ now _ => some (claim, now)
  | _ => none

def NativeFileOp.oversize : NativeFileOp ε → Bool
  | .publish _ page _ _ => decide (MAX_CURSOR_BYTES < page.cursorJson.utf8ByteSize)
  | _ => false

namespace NativeFileState

variable {state after : NativeFileState ε} {label : NativeFileLabel ε}

lemma step_refused (hstep : (nativeFiles ε).step state label after) (hcall : label.op.call = some (claim, now))
    (hnone : state.store.currentGeneration claim now = none) :
    after.store = state.store ∧ label.commit = none ∧
      if label.op.oversize then ∃ error, label.reply = .answered (.error error)
      else label.reply = .answered (.ok false) := by
  obtain ⟨op, reply, commit⟩ := label
  change state.apply op = some (after, reply, commit) at hstep
  cases op with
  | publish claim' page effects now' =>
    cases hcall
    obtain ⟨state', hat, hstep⟩ := Option.bind_eq_some_iff.mp hstep
    obtain ⟨rfl, -⟩ := of_at? hat
    dsimp only at hstep
    split_ifs at hstep
    rw [NativeFileStore.publish_refused page effects hnone] at hstep
    show after.store = state.store ∧ commit = none ∧
      if decide (MAX_CURSOR_BYTES < page.cursorJson.utf8ByteSize) = true then
        ∃ error, reply = .answered (.error error) else reply = .answered (.ok false)
    by_cases hsize : page.cursorJson.utf8ByteSize ≤ MAX_CURSOR_BYTES
    · rw [if_pos hsize] at hstep
      unfold answer at hstep
      dsimp only at hstep
      rw [hnone] at hstep
      cases hstep
      rw [decide_eq_false (not_lt.mpr hsize)]
      exact ⟨rfl, rfl, rfl⟩
    · rw [if_neg hsize] at hstep
      cases hstep
      rw [decide_eq_true (not_le.mp hsize)]
      exact ⟨rfl, rfl, _, rfl⟩
  | fail claim' failure breakContinuity now' retryAt =>
    cases hcall
    obtain ⟨state', hat, hstep⟩ := Option.bind_eq_some_iff.mp hstep
    obtain ⟨rfl, -⟩ := of_at? hat
    dsimp only at hstep
    split_ifs at hstep
    unfold NativeFileStore.failNativeFile answer at hstep
    rw [hnone] at hstep
    cases hstep
    exact ⟨rfl, rfl, rfl⟩
  | claimNext _ _ _ | recover | changeSession _ _ | changeScope _ _ | forget _ | takeFence
  | changeEvidence _ => cases hcall

end NativeFileState

/-! ### Chains of pages -/

def NativeFileLabel.pageOf (label : NativeFileLabel ε) (key : SessionKey) : Prop :=
  ∃ claim cursor, label.commit = some (.page claim cursor) ∧ claim.key = key

/-- The label leaves the session where the claim found it, and its delivery in place. -/
def NativeFileLabel.KeepsBinding (label : NativeFileLabel ε) (claim : NativeFileClaim) : Prop :=
  (∀ session, label.op = .changeSession claim.key session →
    ∃ row, session = some row ∧ NativeFileState.BoundTo row claim) ∧
  ∀ cleared, label.op = .forget cleared → cleared claim.key = false

namespace NativeFileState

variable {state after : NativeFileState ε} {labels : List (NativeFileLabel ε)}
  {label : NativeFileLabel ε} {claim : NativeFileClaim} {cursor : Option String}

/-- The delivery of a claim is at a cursor, and the session is still where the claim found it. -/
structure Linked (claim : NativeFileClaim) (cursor : Option String) (store : NativeFileStore ε) :
    Prop where
  delivery : ∃ row, store.deliveries claim.key = some row ∧ row.cursorJson = cursor ∧
    row.incarnation = claim.incarnation ∧ row.sourceLabel = claim.sourceLabel ∧
    row.cwd = claim.cwd
  session : ∃ session, store.sessions claim.key = some session ∧ BoundTo session claim

lemma reset_eq_false
    (hbound : BoundTo session claim) (hincn : row.incarnation = claim.incarnation)
    (hlabel : row.sourceLabel = claim.sourceLabel) (hcwd : row.cwd = claim.cwd) :
    session.reset (some row) = false := by
  obtain ⟨hincn', hlabel', hcwd'⟩ := hbound
  have hmoved : session.bindingChanged (some row) = false := by
    simp only [SessionRow.bindingChanged, hlabel, hlabel', hcwd, hcwd', bne_self_eq_false,
      Bool.or_self]
  simp only [SessionRow.reset, hmoved, hincn, hincn', bne_self_eq_false,
    Bool.false_and, Bool.or_self]

lemma Linked.step (h : Linked claim cursor state.store) (hcase : NativeFileCase state after label)
    (hkeeps : label.KeepsBinding claim) (hpage : ¬ label.pageOf claim.key) :
    Linked claim cursor after.store := by
  obtain ⟨⟨row, hrow, hcursor, hincn, hlabel, hcwd⟩, session, hsess, hbound⟩ := h
  cases hcase with
  | granted claim' choice now leaseSecs session' _ _ _ hgrants _ =>
    refine ⟨?_, session, hgrants.sessions ▸ hsess, hbound⟩
    rw [hgrants.deliveries]
    by_cases hkey : claim.key = claim'.key
    · refine ⟨_, if_pos hkey, ?_⟩
      -- the session is where the delivery is, so the claim goes on from its cursor
      have hfound : session' = session := by
        have hsame := hgrants.found
        rw [← hkey, hsess] at hsame
        exact (Option.some.inj hsame).symm
      have hmade := hgrants.made
      rw [hfound, ← hkey, hrow] at hmade
      have hreset : claim'.reset = false :=
        (congrArg NativeFileClaim.reset hmade).trans (reset_eq_false hbound hincn hlabel hcwd)
      rw [← hkey, hrow]
      refine ⟨?_, (congrArg NativeFileClaim.incarnation hmade).trans hbound.1,
        (congrArg NativeFileClaim.sourceLabel hmade).trans hbound.2.1, ?_⟩
      · show (if claim'.reset then none else row.cursorJson) = cursor
        rw [hreset]
        exact hcursor
      · apply (congrArg NativeFileClaim.cwd hmade).trans
        show session.cwd.getD "" = claim.cwd
        rw [hbound.2.2]
        rfl
    · exact ⟨row, (if_neg hkey).trans hrow, hcursor, hincn, hlabel, hcwd⟩
  | committed claim' now row₀ session' row' _ hcommit _ hcurrent hcommits _ =>
    refine ⟨?_, session, hcommits.sessions ▸ hsess, hbound⟩
    rw [hcommits.deliveries]
    by_cases hkey : claim.key = claim'.key
    · rcases hcommit with hcommit | ⟨-, hkept⟩
      · exact absurd ⟨claim', row'.cursorJson, hcommit, hkey.symm⟩ hpage
      · have hrow₀ := (NativeFileStore.of_currentGeneration hcurrent).delivery
        rw [← hkey, hrow, Option.some.injEq] at hrow₀
        obtain ⟨hincn', hlabel', hcwd'⟩ := hcommits.binding
        rw [← hrow₀] at hkept hincn' hlabel' hcwd'
        exact ⟨row', if_pos hkey, hkept.trans hcursor, hincn'.trans hincn,
          hlabel'.trans hlabel, hcwd'.trans hcwd⟩
    · exact ⟨row, (if_neg hkey).trans hrow, hcursor, hincn, hlabel, hcwd⟩
  | recovered _ _ _ hstore _ =>
    rw [hstore]
    refine ⟨⟨_, Option.map_eq_some_iff.mpr ⟨row, hrow, rfl⟩, ?_⟩, session, hsess, hbound⟩
    split_ifs <;> exact ⟨hcursor, hincn, hlabel, hcwd⟩
  | sessionChanged key changed hop _ _ hstore _ =>
    rw [hstore]
    by_cases hkey : claim.key = key
    · obtain ⟨row', rfl, hbound'⟩ := hkeeps.1 changed (hkey ▸ hop)
      exact ⟨⟨row, (if_neg (by rintro ⟨-, h⟩; cases h)).trans hrow, hcursor, hincn, hlabel,
        hcwd⟩, row', if_pos hkey, hbound'⟩
    · exact ⟨⟨row, (if_neg fun h => hkey h.1).trans hrow, hcursor, hincn, hlabel, hcwd⟩,
        session, (if_neg hkey).trans hsess, hbound⟩
  | forgot cleared hop _ _ hstore _ =>
    rw [hstore]
    have hkept := hkeeps.2 cleared hop
    exact ⟨⟨row, (if_neg (Bool.not_eq_true _ ▸ hkept)).trans hrow, hcursor, hincn, hlabel,
      hcwd⟩, session, hsess, hbound⟩
  | idle _ _ _ hdeliveries hsessions _ _ =>
    exact ⟨⟨row, hdeliveries ▸ hrow, hcursor, hincn, hlabel, hcwd⟩, session,
      hsessions ▸ hsess, hbound⟩

lemma step_page (hcase : NativeFileCase state after label)
    (hcommit : label.commit = some (.page claim cursor)) :
    (∃ row, state.store.deliveries claim.key = some row ∧ row.cursorJson = claim.cursorJson) ∧
      Linked claim cursor after.store := by
  cases hcase with
  | granted _ _ _ _ _ _ _ hnone _ _ | recovered _ hnone _ _ _ | sessionChanged _ _ _ hnone _ _ _
  | forgot _ _ hnone _ _ _ | idle hnone _ _ _ _ _ _ =>
    rw [hnone] at hcommit
    cases hcommit
  | committed claim' now row session row' _ hcommd _ hcurrent hcommits _ =>
    have hpage : claim' = claim ∧ row'.cursorJson = cursor := by
      rcases hcommd with hpage | ⟨hfail, -⟩
      · rw [hpage] at hcommit
        cases hcommit
        exact ⟨rfl, rfl⟩
      · rw [hfail] at hcommit
        cases hcommit
    obtain ⟨rfl, hcursor⟩ := hpage
    have hrows := NativeFileStore.of_currentGeneration hcurrent
    obtain ⟨hincn, hlabel, hcwd⟩ := hcommits.binding
    refine ⟨⟨row, hrows.delivery, hrows.cursor⟩, ⟨row', ?_, hcursor,
      hincn.trans hrows.rowBinding.1, hlabel.trans hrows.rowBinding.2.1,
      hcwd.trans hrows.rowBinding.2.2⟩, session, hcommits.sessions ▸ hrows.found,
      hrows.sessionBinding⟩
    rw [hcommits.deliveries]
    exact if_pos rfl

lemma Linked.run (h : Linked claim cursor state.store) (hrun : (nativeFiles ε).Run state labels after)
    (hkeeps : ∀ label ∈ labels, label.KeepsBinding claim ∧ ¬ label.pageOf claim.key) :
    Linked claim cursor after.store :=
  hrun.invariant_of (I := fun state => Linked claim cursor state.store)
    (P := fun label => label.KeepsBinding claim ∧ ¬ label.pageOf claim.key)
    (fun _ _ _ hkeeps hstep h => h.step (step_cases hstep) hkeeps.1 hkeeps.2) hkeeps h

end NativeFileState

/-- **Each page is committed once.**  In any run the fences of claims increase, and a
claim commits at most one page or failure.  A page is committed only if it was read
from the cursor of its delivery; while the session stays where it is, that is the one
the page before it left.  A holder whose claim has lapsed changes no row. -/
theorem native_file_delivery {store : NativeFileStore ε} {clock : Int}
    {labels : List (NativeFileLabel ε)} {state : NativeFileState ε}
    (hrun : (nativeFiles ε).Run (.fresh store clock) labels state) :
    ((nativeFileClaims labels).Pairwise fun earlier later => earlier.fence < later.fence) ∧
    ((nativeFileCommits labels).map fun commit => commit.claim.fence).Nodup ∧
    (∀ before label rest middle after, labels = before ++ label :: rest →
      (nativeFiles ε).Run (.fresh store clock) before middle →
      (nativeFiles ε).step middle label after →
      (∀ claim cursor, label.commit = some (.page claim cursor) →
        ∃ row, middle.store.deliveries claim.key = some row ∧
          row.cursorJson = claim.cursorJson) ∧
      ∀ claim now, label.op.call = some (claim, now) →
        NativeFileState.Lapsed before middle claim now →
        after.store = middle.store ∧ label.commit = none ∧
          if label.op.oversize then ∃ error, label.reply = .answered (.error error)
          else label.reply = .answered (.ok false)) ∧
    ∀ before first between second rest claim cursor claim' cursor',
      labels = before ++ first :: (between ++ second :: rest) →
      first.commit = some (.page claim cursor) → second.commit = some (.page claim' cursor') →
      claim'.key = claim.key →
      (∀ label ∈ between, label.KeepsBinding claim ∧ ¬ label.pageOf claim.key) →
      claim'.cursorJson = cursor := by
  have hdelivered := NativeFileState.Delivered.run hrun
  refine ⟨?_, hdelivered.once, ?_, ?_⟩
  · have hordered : (state.granted.map NativeFileGrant.claim).Pairwise
        fun later earlier => earlier.fence < later.fence :=
      List.pairwise_map.mpr hdelivered.fenced.ordered
    rw [hdelivered.claims] at hordered
    exact List.pairwise_reverse.mp hordered
  · intro before label rest middle after _ hbefore hstep
    refine ⟨fun claim cursor hcommit => ?_, fun claim now hcall hlapsed => ?_⟩
    · exact (NativeFileState.step_page (NativeFileState.step_cases hstep) hcommit).1
    · exact NativeFileState.step_refused hstep hcall
        (NativeFileState.not_current_of_lapsed hbefore hlapsed)
  · intro before first between second rest claim cursor claim' cursor' hlabels hfirst hsecond hkey
      hkeeps
    rw [hlabels] at hrun
    obtain ⟨state₁, -, hrest⟩ := hrun.of_append
    obtain ⟨state₂, hstep, hrest⟩ := hrest.of_cons
    obtain ⟨state₃, hbetween, hrest⟩ := hrest.of_append
    obtain ⟨state₄, hstep', -⟩ := hrest.of_cons
    obtain ⟨-, hlinked⟩ := NativeFileState.step_page (NativeFileState.step_cases hstep) hfirst
    obtain ⟨row, hrow, hcursor, -⟩ := (hlinked.run hbetween hkeeps).delivery
    obtain ⟨⟨row', hrow', hcursor'⟩, -⟩ :=
      NativeFileState.step_page (NativeFileState.step_cases hstep') hsecond
    rw [hkey, hrow, Option.some.injEq] at hrow'
    rw [← hcursor', ← hrow', hcursor]

/-! ### Two pages of a session -/

def nativeSession : SessionRow where
  incarnation := 1
  sourceLabel := "claude"
  cwd := some "/work"
  sourceKind := "file"
  wslDistro := none
  sourceGeneration := 0
  updatedAtEpoch := some 0

def nativeKey : SessionKey := ⟨"native", "claude-code", "session"⟩

def nativeStore : NativeFileStore Unit where
  sessions key := if key = nativeKey then some nativeSession else none
  watched _ := true
  related _ := false
  fenceSeq := 0
  nextTicket := 1
  successfulTurns := 0
  evidence := ()

def takingEffects : PageEffects Unit where
  ensureBoundary _ := .ok (false, ())
  invalidate _ _ := .ok ()
  reconcile _ _ := .ok (true, ())
  frontier _ _ := .ok ()
  retryCursor := .ok "start"

def nativePage (cursor : String) : NativeFilePage where
  cursorJson := cursor
  sourceFormat := .claudeJsonl
  hasMore := true
  pendingTail := false
  baselineReached := false
  historyComplete := true
  admissionFailure := none
  eventFailures := []

def firstClaim : NativeFileClaim := nativeStore.newClaim nativeKey nativeSession none

def firstGrant : NativeFileLabel Unit :=
  ⟨.claimNext (some nativeKey) 0 60, .claimed (some firstClaim), none⟩

def firstPage : NativeFileLabel Unit :=
  ⟨.publish firstClaim (nativePage "first") takingEffects 1, .answered (.ok true),
    some (.page firstClaim (some "first"))⟩

def secondClaim : NativeFileClaim :=
  { firstClaim with
    cursorJson := some "first"
    fence := 2
    reset := false
    parserRevision := some PARSER_REVISION }

def secondGrant : NativeFileLabel Unit :=
  ⟨.claimNext (some nativeKey) 2 60, .claimed (some secondClaim), none⟩

def secondPage : NativeFileLabel Unit :=
  ⟨.publish secondClaim (nativePage "second") takingEffects 3, .answered (.ok true),
    some (.page secondClaim (some "second"))⟩

/-- The second page starts where the first one ends. -/
theorem native_file_delivery_pages :
    ∃ state, (nativeFiles Unit).Run (.fresh nativeStore 0)
        [firstGrant, firstPage, secondGrant, secondPage] state ∧
      secondClaim.cursorJson = some "first" := by
  have hrun : ∃ state, (nativeFiles Unit).Run (.fresh nativeStore 0)
      [firstGrant, firstPage, secondGrant, secondPage] state :=
    ⟨_, .cons rfl (.cons rfl (.cons rfl (.single rfl)))⟩
  obtain ⟨state, hrun⟩ := hrun
  refine ⟨state, hrun, (native_file_delivery hrun).2.2.2 [firstGrant] firstPage [secondGrant]
    secondPage [] firstClaim (some "first") secondClaim (some "second") rfl rfl rfl rfl ?_⟩
  intro label hmem
  rw [List.mem_singleton.mp hmem]
  refine ⟨⟨nofun, nofun⟩, ?_⟩
  rintro ⟨claim, cursor, hcommit, -⟩
  cases hcommit

lemma exists_utf8ByteSize_eq (n : Nat) : ∃ text : String, text.utf8ByteSize = n := by
  induction n with
  | zero => exact ⟨"", rfl⟩
  | succ n ih =>
    obtain ⟨text, hsize⟩ := ih
    exact ⟨text.push 'a', by rw [String.utf8ByteSize_push, hsize]; rfl⟩

/-- The size of a page's cursor is checked before its claim: a holder whose lease has
expired gets an error, not false. -/
theorem expired_holder_errors :
    ¬ ∀ (labels : List (NativeFileLabel Unit)) (before after : NativeFileState Unit)
      (label : NativeFileLabel Unit) (claim : NativeFileClaim) (now : Int),
      (nativeFiles Unit).Run (.fresh nativeStore 0) labels before →
      (nativeFiles Unit).step before label after → label.op.call = some (claim, now) →
      NativeFileState.Lapsed labels before claim now → label.reply = .answered (.ok false) := by
  intro hclaim
  obtain ⟨cursor, hsize⟩ := exists_utf8ByteSize_eq (MAX_CURSOR_BYTES + 1)
  have hrun : ∃ state, (nativeFiles Unit).Run (.fresh nativeStore 0) [firstGrant] state ∧
      state.granted = [⟨firstClaim, 60⟩] ∧ state.clock = 0 :=
    ⟨_, .single rfl, rfl, rfl⟩
  obtain ⟨state, hrun, hgranted, hclock⟩ := hrun
  have hlapsed : NativeFileState.Lapsed [firstGrant] state firstClaim 60 :=
    .expired firstGrant (some nativeKey) 0 60 List.mem_cons_self rfl rfl (le_refl _)
  -- the call happens, whatever it replies
  have hcall : ∃ after reply commit, (nativeFiles Unit).step state
      ⟨.publish firstClaim (nativePage cursor) takingEffects 60, reply, commit⟩ after := by
    have hat : state.at? 60 = some { state with clock := 60 } := by
      unfold NativeFileState.at?
      rw [hclock]
      rfl
    have hheld : state.heldBy firstClaim = true := by
      unfold NativeFileState.heldBy
      rw [hgranted]
      exact List.any_eq_true.mpr ⟨_, List.mem_cons_self, beq_self_eq_true _⟩
    let result := NativeFileState.answer { state with clock := 60 } firstClaim 60
      (state.store.publishNativeFilePage firstClaim (nativePage cursor) takingEffects 60)
      fun store => .page firstClaim ((store.deliveries firstClaim.key).bind (·.cursorJson))
    refine ⟨result.1, result.2.1, result.2.2, ?_⟩
    show (do
      let state ← state.at? 60
      if !state.heldBy firstClaim then none else some _) = some result
    rw [hat]
    show (if !state.heldBy firstClaim then none else some result) = some result
    rw [hheld]
    rfl
  obtain ⟨after, reply, commit, hstep⟩ := hcall
  obtain ⟨-, -, hreply⟩ := NativeFileState.step_refused hstep rfl
    (NativeFileState.not_current_of_lapsed hrun hlapsed)
  have hoversize : (NativeFileOp.publish firstClaim (nativePage cursor) takingEffects
      60).oversize = true := by
    apply decide_eq_true
    show MAX_CURSOR_BYTES < cursor.utf8ByteSize
    rw [hsize]
    exact Nat.lt_succ_self _
  dsimp only at hreply
  rw [if_pos hoversize] at hreply
  obtain ⟨error, hreply⟩ := hreply
  have hfalse := hclaim [firstGrant] state after _ firstClaim 60 hrun hstep rfl hlapsed
  cases hfalse.symm.trans hreply

end Antiburn
