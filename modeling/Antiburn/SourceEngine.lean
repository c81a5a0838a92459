/-
Source pages through failing commits and restarts.

The engine caches the progress of an activation, prepares a page from it, asks
the store for the transaction and moves the cache only after the commit.  The
store is a parameter: its contract is what the trait asks of an implementation.
`PageInvariant` ties cache, durable progress and committed transactions to the
run without interruption; `clean_run` is that run.
-/
import Antiburn.Selector
import Antiburn.SourcePage

namespace Antiburn

/-! ### The store -/

/-- A store of source progress, with the contract of the trait: a load that
succeeds returns the durable progress; a page that is accepted replaces it and
is appended to the transactions of the activation; a failure leaves both. -/
structure SourceStore (σ : Type) where
  loadSourceProgress : EffectiveActivation → σ → Except StoreError SourceProgress × σ
  applySourcePage : EffectiveActivation → PageCommit → σ → Except StoreError Unit × σ
  durable : σ → ActivationId → SourceProgress
  committed : σ → ActivationId → List PageCommit
  load_ok : ∀ activation s progress s', loadSourceProgress activation s = (.ok progress, s') →
    progress = durable s activation.id
  load_keeps : ∀ activation s id,
    durable (loadSourceProgress activation s).2 id = durable s id ∧
      committed (loadSourceProgress activation s).2 id = committed s id
  apply_ok : ∀ activation commit s s', applySourcePage activation commit s = (.ok (), s') →
    durable s' activation.id = commit.next ∧
      committed s' activation.id = committed s activation.id ++ [commit]
  apply_error : ∀ activation commit s error s',
    applySourcePage activation commit s = (.error error, s') →
    durable s' activation.id = durable s activation.id ∧
      committed s' activation.id = committed s activation.id
  apply_frame : ∀ activation commit s id, id ≠ activation.id →
    durable (applySourcePage activation commit s).2 id = durable s id ∧
      committed (applySourcePage activation commit s).2 id = committed s id

/-! ### The engine -/

/-- The selectors an engine holds in memory, behind a mutex that a panic poisons. -/
structure SourceEngine where
  selectors : ActivationId → Option SourceProgress := fun _ => none
  poisoned : Bool := false

def SourceEngine.cache (engine : SourceEngine) (id : ActivationId)
    (progress : Option SourceProgress) : SourceEngine :=
  { engine with selectors := Function.update engine.selectors id progress }

section Apply

variable [Platform] {σ : Type}

def SourceEngine.progress (store : SourceStore σ) (act : EffectiveActivation)
    (engine : SourceEngine) (s : σ) :
    Except StoreError SourceProgress × SourceEngine × σ :=
  match engine.selectors act.id with
  | some progress => (.ok progress, engine, s)
  | none =>
    match store.loadSourceProgress act s with
    | (.ok progress, s) => (.ok progress, engine.cache act.id (some progress), s)
    | (.error error, s) => (.error error, engine, s)

def SourceEngine.applySourcePage (store : SourceStore σ) (act : EffectiveActivation)
    (capture : PageCapture) (page : SourceBatch) (engine : SourceEngine) (s : σ) :
    Except PageFault PreparedPage × SourceEngine × σ :=
  if engine.poisoned then (.error .panic, engine, s)
  else match engine.progress store act s with
    | (.error error, engine, s) => (.error (.error error), engine, s)
    | (.ok progress, engine, s) =>
      match preparePage act capture progress page with
      | .error (.error error) => (.error (.error error), engine, s)
      | .error .panic => (.error .panic, { engine with poisoned := true }, s)
      | .ok prepared =>
        match store.applySourcePage act prepared.commit s with
        | (.error error, s) => (.error (.error error), engine.cache act.id none, s)
        | (.ok (), s) =>
          (.ok prepared, engine.cache act.id (some prepared.commit.next), s)

/-! ### The run without interruption -/

def cleanRun (act : EffectiveActivation) (capture : PageCapture) :
    SourceProgress → List SourceBatch → Except PageFault (List PageCommit × SourceProgress)
  | progress, [] => .ok ([], progress)
  | progress, page :: pages => do
    let prepared ← preparePage act capture progress page
    let (commits, last) ← cleanRun act capture prepared.commit.next pages
    return (prepared.commit :: commits, last)

variable {id : ActivationId} {act : EffectiveActivation} {pages : List SourceBatch}
  {capture : PageCapture}

lemma cleanRun_append
    {progress : SourceProgress} {commits : List PageCommit}
    {last : SourceProgress} {page : SourceBatch} {prepared : PreparedPage}
    (h : cleanRun act capture progress pages = .ok (commits, last))
    (hpage : preparePage act capture last page = .ok prepared) :
    cleanRun act capture progress (pages ++ [page]) =
      .ok (commits ++ [prepared.commit], prepared.commit.next) := by
  induction pages generalizing progress commits with
  | nil =>
    cases h
    simp only [List.nil_append, cleanRun, hpage, bind, Except.bind]
    rfl
  | cons first rest ih =>
    simp only [cleanRun, bind, Except.bind] at h
    split at h
    · cases h
    · rename_i preparedFirst hfirst
      split at h
      · cases h
      · rename_i result hrest
        obtain ⟨commits', last'⟩ := result
        cases h
        simp only [List.cons_append, cleanRun, hfirst, bind, Except.bind, ih hrest]
        rfl

/-! ### The interrupted run -/

structure PageRun (σ : Type) where
  engine : SourceEngine
  store : σ
  acknowledged : Nat

/-- What the host does next. -/
inductive PageAction where
  /-- Apply the page after the last one that was accepted. -/
  | attempt
  /-- Discard the engine and build a new one on the same store. -/
  | restart
  /-- Apply a page of another activation. -/
  | foreign (activation : EffectiveActivation) (capture : PageCapture) (page : SourceBatch)

/-- The host of an engine.  It reads its next page behind the last transaction;
what a call does after the commit, queueing the candidates, touches neither the
selectors nor the source progress. -/
inductive PageStep (store : SourceStore σ) (activation : EffectiveActivation)
    (capture : PageCapture) (pages : List SourceBatch) :
    PageRun σ → PageAction → PageRun σ → Prop
  | accepted {r : PageRun σ} {page : SourceBatch} {prepared : PreparedPage}
      {engine : SourceEngine} {s : σ} (hpage : pages[r.acknowledged]? = some page)
      (happly : r.engine.applySourcePage store activation capture page r.store =
        (.ok prepared, engine, s)) :
      PageStep store activation capture pages r .attempt ⟨engine, s, r.acknowledged + 1⟩
  | failed {r : PageRun σ} {page : SourceBatch} {fault : PageFault}
      {engine : SourceEngine} {s : σ} (hpage : pages[r.acknowledged]? = some page)
      (happly : r.engine.applySourcePage store activation capture page r.store =
        (.error fault, engine, s)) :
      PageStep store activation capture pages r .attempt ⟨engine, s, r.acknowledged⟩
  | restart {r : PageRun σ} :
      PageStep store activation capture pages r .restart ⟨{}, r.store, r.acknowledged⟩
  | foreign {r : PageRun σ} {other : EffectiveActivation} {otherCapture : PageCapture}
      {page : SourceBatch} {result : Except PageFault PreparedPage} {engine : SourceEngine} {s : σ}
      (hother : other.id ≠ activation.id)
      (happly : r.engine.applySourcePage store other otherCapture page r.store =
        (result, engine, s)) :
      PageStep store activation capture pages r (.foreign other otherCapture page)
        ⟨engine, s, r.acknowledged⟩

def PageRun.attempt (store : SourceStore σ) (act : EffectiveActivation)
    (capture : PageCapture) (pages : List SourceBatch) (r : PageRun σ) : PageRun σ :=
  match pages[r.acknowledged]? with
  | none => r
  | some page =>
    match r.engine.applySourcePage store act capture page r.store with
    | (.ok _, engine, s) => ⟨engine, s, r.acknowledged + 1⟩
    | (.error _, engine, s) => ⟨engine, s, r.acknowledged⟩

lemma PageRun.step_attempt {store : SourceStore σ}
    {r : PageRun σ}
    (h : r.acknowledged < pages.length) :
    PageStep store act capture pages r .attempt
      (r.attempt store act capture pages) := by
  have hpage : pages[r.acknowledged]? = some pages[r.acknowledged] := List.getElem?_eq_getElem h
  unfold PageRun.attempt
  rw [hpage]
  dsimp only
  split
  · rename_i happly
    exact .accepted hpage happly
  · rename_i happly
    exact .failed hpage happly

def pageHost (store : SourceStore σ) (act : EffectiveActivation) (capture : PageCapture)
    (pages : List SourceBatch) : Machine (PageRun σ) PageAction :=
  ⟨PageStep store act capture pages⟩

def CacheSound (store : SourceStore σ) (id : ActivationId) (engine : SourceEngine) (s : σ) : Prop :=
  engine.selectors id = none ∨ engine.selectors id = some (store.durable s id)

variable {store : SourceStore σ} {act : EffectiveActivation} {capture : PageCapture}
  {page : SourceBatch} {engine engine' : SourceEngine} {s s' : σ}

omit [Platform] in
@[simp] lemma selectors_cache_self (engine : SourceEngine) (id : ActivationId)
    (progress : Option SourceProgress) : (engine.cache id progress).selectors id = progress :=
  Function.update_self ..

omit [Platform] in
lemma selectors_cache_of_ne (engine : SourceEngine) {id' : ActivationId} (h : id' ≠ id)
    (progress : Option SourceProgress) :
    (engine.cache id progress).selectors id' = engine.selectors id' :=
  Function.update_of_ne h ..

omit [Platform] in
/-- Looking up the progress keeps what the store holds and a sound cache, and
changes the cache of no other activation. -/
lemma progress_spec {result : Except StoreError SourceProgress}
    (h : engine.progress store act s = (result, engine', s')) :
    (∀ id, store.durable s' id = store.durable s id ∧
        store.committed s' id = store.committed s id) ∧
      (∀ id, id ≠ act.id → engine'.selectors id = engine.selectors id) ∧
      (CacheSound store act.id engine s → CacheSound store act.id engine' s' ∧
        ∀ progress, result = .ok progress → progress = store.durable s act.id) := by
  unfold SourceEngine.progress at h
  split at h
  · rename_i progress hcached
    cases h
    refine ⟨fun _ => ⟨rfl, rfl⟩, fun _ _ => rfl, fun hsound => ⟨hsound, ?_⟩⟩
    rintro _ ⟨⟩
    rcases hsound with hnone | hsome
    · rw [hnone] at hcached
      cases hcached
    · exact Option.some.inj (hcached.symm.trans hsome)
  · rename_i hcached
    have hkeeps := store.load_keeps act s
    split at h
    · rename_i progress s₁ hload
      cases h
      rw [hload] at hkeeps
      have hprog := store.load_ok _ _ _ _ hload
      refine ⟨hkeeps, fun id hid => selectors_cache_of_ne _ hid _, fun _ => ⟨.inr ?_, ?_⟩⟩
      · rw [selectors_cache_self, (hkeeps act.id).1, hprog]
      · rintro _ ⟨⟩
        exact hprog
    · rename_i error s₁ hload
      cases h
      rw [hload] at hkeeps
      refine ⟨hkeeps, fun _ _ => rfl, fun _ => ⟨.inl hcached, ?_⟩⟩
      rintro _ ⟨⟩

/-- **What a call of `apply_source_page` does.**  Either the page is prepared
from the durable progress and becomes durable, and the cache follows; or the
call fails, nothing durable changes, and the cache is not ahead of it. -/
lemma applySourcePage_spec {result : Except PageFault PreparedPage}
    (h : engine.applySourcePage store act capture page s = (result, engine', s'))
    (hsound : CacheSound store act.id engine s) :
    (∃ prepared, result = .ok prepared ∧
        preparePage act capture (store.durable s act.id) page = .ok prepared ∧
        engine'.selectors act.id = some prepared.commit.next ∧
        store.durable s' act.id = prepared.commit.next ∧
        store.committed s' act.id =
          store.committed s act.id ++ [prepared.commit]) ∨
      (∃ fault, result = .error fault ∧ CacheSound store act.id engine' s' ∧
        store.durable s' act.id = store.durable s act.id ∧
        store.committed s' act.id = store.committed s act.id) := by
  unfold SourceEngine.applySourcePage at h
  split_ifs at h with hpoisoned
  · cases h
    exact .inr ⟨_, rfl, hsound, rfl, rfl⟩
  · split at h
    · rename_i error engine₁ s₁ hprog
      cases h
      obtain ⟨hkeeps, -, hcache⟩ := progress_spec hprog
      exact .inr ⟨_, rfl, (hcache hsound).1, hkeeps _⟩
    · rename_i progress engine₁ s₁ hprog
      obtain ⟨hkeeps, -, hcache⟩ := progress_spec hprog
      obtain ⟨hsound₁, hloaded⟩ := hcache hsound
      have hprepared := hloaded progress rfl
      subst hprepared
      split at h
      · cases h
        exact .inr ⟨_, rfl, hsound₁, hkeeps _⟩
      · cases h
        exact .inr ⟨_, rfl, hsound₁, hkeeps _⟩
      · rename_i prepared hprep
        split at h
        · rename_i error s₂ happly
          cases h
          obtain ⟨hdurab, hcommitted⟩ := store.apply_error _ _ _ _ _ happly
          refine .inr ⟨_, rfl, .inl (selectors_cache_self ..), ?_, ?_⟩
          · rw [hdurab, (hkeeps _).1]
          · rw [hcommitted, (hkeeps _).2]
        · rename_i s₂ happly
          cases h
          obtain ⟨hdurab, hcommitted⟩ := store.apply_ok _ _ _ _ happly
          refine .inl ⟨prepared, rfl, hprep, selectors_cache_self .., hdurab, ?_⟩
          rw [hcommitted, (hkeeps _).2]

lemma applySourcePage_frame {result : Except PageFault PreparedPage}
    (h : engine.applySourcePage store act capture page s = (result, engine', s'))
    (hid : id ≠ act.id) :
    engine'.selectors id = engine.selectors id ∧ store.durable s' id = store.durable s id ∧
      store.committed s' id = store.committed s id := by
  unfold SourceEngine.applySourcePage at h
  split_ifs at h with hpoisoned
  · cases h
    exact ⟨rfl, rfl, rfl⟩
  · split at h
    · rename_i error engine₁ s₁ hprog
      cases h
      obtain ⟨hkeeps, hframe, -⟩ := progress_spec hprog
      exact ⟨hframe id hid, hkeeps id⟩
    · rename_i progress engine₁ s₁ hprog
      obtain ⟨hkeeps, hframe, -⟩ := progress_spec hprog
      split at h
      · cases h
        exact ⟨hframe id hid, hkeeps id⟩
      · cases h
        exact ⟨hframe id hid, hkeeps id⟩
      · rename_i prepared hprep
        have happly := store.apply_frame act prepared.commit s₁ id hid
        split at h
        · rename_i error s₂ hcommit
          cases h
          rw [hcommit] at happly
          refine ⟨?_, ?_, ?_⟩
          · rw [selectors_cache_of_ne _ hid, hframe id hid]
          · rw [happly.1, (hkeeps id).1]
          · rw [happly.2, (hkeeps id).2]
        · rename_i s₂ hcommit
          cases h
          rw [hcommit] at happly
          refine ⟨?_, ?_, ?_⟩
          · rw [selectors_cache_of_ne _ hid, hframe id hid]
          · rw [happly.1, (hkeeps id).1]
          · rw [happly.2, (hkeeps id).2]

/-- The cache is empty or what the store holds, and the store holds what the
accepted pages leave without interruption. -/
structure PageInvariant (store : SourceStore σ) (activation : EffectiveActivation)
    (capture : PageCapture) (pages : List SourceBatch) (start : σ) (r : PageRun σ) : Prop where
  cached : CacheSound store activation.id r.engine r.store
  clean : ∃ commits, cleanRun activation capture (store.durable start activation.id)
      (pages.take r.acknowledged) = .ok (commits, store.durable r.store activation.id) ∧
    store.committed r.store activation.id = store.committed start activation.id ++ commits
  bounded : r.acknowledged ≤ pages.length

section Runs

variable {pages : List SourceBatch} {start : σ} {r r' : PageRun σ}

lemma PageInvariant.step {action : PageAction}
    (h : PageInvariant store act capture pages start r)
    (hstep : PageStep store act capture pages r action r') :
    PageInvariant store act capture pages start r' := by
  obtain ⟨commits, hclean, hcommitted⟩ := h.clean
  cases hstep with
  | @accepted page prepared engine s hpage happly =>
    rcases applySourcePage_spec happly h.cached with
      ⟨prepared', hresult, hprep, hcache, hdurab, hcomm⟩ | ⟨_, hresult, _⟩
    · cases hresult
      refine ⟨.inr (by rw [hcache, hdurab]), ⟨commits ++ [prepared.commit], ?_, ?_⟩,
        (List.getElem?_eq_some_iff.mp hpage).1⟩
      · have htake : pages.take (r.acknowledged + 1) = pages.take r.acknowledged ++ [page] := by
          rw [List.take_add_one, hpage]
          rfl
        show cleanRun _ _ _ (pages.take (r.acknowledged + 1)) = _
        rw [htake, cleanRun_append hclean hprep, hdurab]
      · rw [hcomm, hcommitted, List.append_assoc]
    · cases hresult
  | failed hpage happly =>
    rcases applySourcePage_spec happly h.cached with
      ⟨_, hresult, _⟩ | ⟨fault, hresult, hcache, hdurab, hcomm⟩
    · cases hresult
    · exact ⟨hcache, ⟨commits, by rw [hdurab]; exact hclean, by rw [hcomm]; exact hcommitted⟩,
        h.bounded⟩
  | restart => exact ⟨.inl rfl, ⟨commits, hclean, hcommitted⟩, h.bounded⟩
  | foreign hother happly =>
    obtain ⟨hcache, hdurab, hcomm⟩ := applySourcePage_frame happly (Ne.symm hother)
    refine ⟨?_, ⟨commits, by rw [hdurab]; exact hclean, by rw [hcomm]; exact hcommitted⟩,
      h.bounded⟩
    rw [CacheSound, hcache, hdurab]
    exact h.cached

lemma pageInvariant_run {actions : List PageAction}
    (hrun : (pageHost store act capture pages).Run ⟨{}, start, 0⟩ actions r) :
    PageInvariant store act capture pages start r := by
  refine hrun.invariant (I := PageInvariant store act capture pages start)
    (fun _ _ _ hstep h => h.step hstep) ⟨.inl rfl, ⟨[], rfl, (List.append_nil _).symm⟩,
      Nat.zero_le _⟩

end Runs

/-! ### A reliable store -/

/-- A store that keeps one checkpoint document for each activation and refuses
as many page transactions as it is told to. -/
structure CheckpointStore where
  documents : ActivationId → Json
  transactions : ActivationId → List PageCommit := fun _ => []
  /-- Whether each of the next page transactions fails. -/
  failures : List Bool := []

namespace CheckpointStore

def new (progress : SourceProgress) (failures : List Bool) : CheckpointStore where
  documents := fun _ => progress.document
  failures := failures

def progress (s : CheckpointStore) (id : ActivationId) : SourceProgress :=
  match SourceProgress.ofDocument (some (s.documents id)) with
  | .ok progress => progress
  | .error _ => {}

/-- The transaction itself. -/
def accept (act : EffectiveActivation) (commit : PageCommit) (s : CheckpointStore) :
    CheckpointStore where
  documents := Function.update s.documents act.id commit.next.document
  transactions := Function.update s.transactions act.id
    (s.transactions act.id ++ [commit])
  failures := s.failures.tail

def applySourcePage (act : EffectiveActivation) (commit : PageCommit)
    (s : CheckpointStore) : Except StoreError Unit × CheckpointStore :=
  if s.failures.head? = some true then
    (.error ⟨"injected page failure"⟩, { s with failures := s.failures.tail })
  else if (s.progress act.id).head ≠ commit.expected then
    (.error ⟨"source progress changed"⟩, { s with failures := s.failures.tail })
  else (.ok (), s.accept act commit)

omit [Platform] in
lemma progress_of_document {s : CheckpointStore} {id : ActivationId} {progress : SourceProgress}
    (h : s.documents id = progress.document) : s.progress id = progress := by
  rw [CheckpointStore.progress, h, SourceProgress.ofDocument_document]

omit [Platform] in
lemma progress_accept_self (act : EffectiveActivation) (commit : PageCommit)
    (s : CheckpointStore) : (s.accept act commit).progress act.id = commit.next :=
  progress_of_document (Function.update_self ..)

lemma applySourcePage_cases (act : EffectiveActivation) (commit : PageCommit)
    (s : CheckpointStore) :
    (∃ error, s.applySourcePage act commit =
        (.error error, { s with failures := s.failures.tail })) ∨
      s.applySourcePage act commit = (.ok (), s.accept act commit) := by
  unfold applySourcePage
  split_ifs
  · exact .inl ⟨_, rfl⟩
  · exact .inl ⟨_, rfl⟩
  · exact .inr rfl

end CheckpointStore

/-- Checkpoint documents meet the contract, for they read back what was written. -/
def checkpointStore : SourceStore CheckpointStore where
  loadSourceProgress act s :=
    (SourceProgress.ofDocument (some (s.documents act.id)), s)
  applySourcePage act commit s := s.applySourcePage act commit
  durable := CheckpointStore.progress
  committed := CheckpointStore.transactions
  load_ok := by
    intro act s progress s' h
    rw [Prod.mk.injEq] at h
    rw [CheckpointStore.progress, h.1]
  load_keeps := fun _ _ _ => ⟨rfl, rfl⟩
  apply_ok := by
    intro act commit s s' h
    rcases s.applySourcePage_cases act commit with ⟨error, herror⟩ | hok
    · rw [herror] at h
      cases h
    · rw [hok] at h
      cases h
      exact ⟨s.progress_accept_self act commit, Function.update_self ..⟩
  apply_error := by
    intro act commit s error s' h
    rcases s.applySourcePage_cases act commit with ⟨error', herror⟩ | hok
    · rw [herror] at h
      cases h
      exact ⟨rfl, rfl⟩
    · rw [hok] at h
      cases h
  apply_frame := by
    intro act commit s id hid
    rcases s.applySourcePage_cases act commit with ⟨error, herror⟩ | hok
    · rw [herror]
      exact ⟨rfl, rfl⟩
    · rw [hok]
      refine ⟨?_, Function.update_of_ne hid ..⟩
      show (s.accept act commit).progress id = s.progress id
      have hdocument : (s.accept act commit).documents id = s.documents id :=
        Function.update_of_ne hid ..
      rw [CheckpointStore.progress, CheckpointStore.progress, hdocument]

/-! ### Without interruption -/

section Uninterrupted

variable {pages : List SourceBatch} {start : σ} {r : PageRun σ}

variable {commits : List PageCommit} {prepared : PreparedPage}

lemma preparePage_expected {progress : SourceProgress}
    (h : preparePage act capture progress page = .ok prepared) :
    prepared.commit.expected = progress.head := by
  unfold preparePage at h
  split at h
  · cases h
  · simp only [bind, Except.bind] at h
    split at h
    · cases h
    · cases h
      rfl

lemma cleanRun_append_inv {progress last : SourceProgress}
    (h : cleanRun act capture progress (pages ++ [page]) = .ok (commits, last)) :
    ∃ before middle prepared,
      cleanRun act capture progress pages = .ok (before, middle) ∧
      preparePage act capture middle page = .ok prepared ∧
      commits = before ++ [prepared.commit] ∧ last = prepared.commit.next := by
  induction pages generalizing progress commits with
  | nil =>
    simp only [List.nil_append, cleanRun, bind, Except.bind] at h
    split at h
    · cases h
    · rename_i prepared hprep
      cases h
      exact ⟨[], progress, prepared, rfl, hprep, rfl, rfl⟩
  | cons first rest ih =>
    simp only [List.cons_append, cleanRun, bind, Except.bind] at h
    split at h
    · cases h
    · rename_i preparedFirst hfirst
      split at h
      · cases h
      · rename_i result hrest
        obtain ⟨commits', last'⟩ := result
        cases h
        obtain ⟨before, middle, prepared, hbefore, hprep, rfl, rfl⟩ := ih hrest
        refine ⟨preparedFirst.commit :: before, middle, prepared, ?_, hprep, rfl, rfl⟩
        simp only [cleanRun, hfirst, bind, Except.bind, hbefore]
        rfl

lemma reliable_step {c : PageRun CheckpointStore} {progress : SourceProgress}
    (hsound : CacheSound checkpointStore act.id c.engine c.store)
    (hhealt : c.engine.poisoned = false) (hreliab : c.store.failures = [])
    (hdocument : c.store.documents act.id = progress.document)
    (hpage : pages[c.acknowledged]? = some page)
    (hprep : preparePage act capture progress page = .ok prepared) :
    ∃ engine, PageStep checkpointStore act capture pages c .attempt
      ⟨engine, c.store.accept act prepared.commit, c.acknowledged + 1⟩ ∧
      engine.poisoned = false := by
  have hprog : c.store.progress act.id = progress :=
    CheckpointStore.progress_of_document hdocument
  have hlookup : ∃ engine, c.engine.progress checkpointStore act c.store =
      (.ok progress, engine, c.store) ∧ engine.poisoned = false := by
    unfold SourceEngine.progress
    rcases hsound with hnone | hsome
    · have hload : checkpointStore.loadSourceProgress act c.store =
          (.ok progress, c.store) := by
        show (SourceProgress.ofDocument (some (c.store.documents act.id)), c.store) = _
        rw [hdocument, SourceProgress.ofDocument_document]
      simp only [hnone, hload]
      exact ⟨_, rfl, hhealt⟩
    · have hdurab : checkpointStore.durable c.store act.id = progress := hprog
      rw [hdurab] at hsome
      simp only [hsome]
      exact ⟨_, rfl, hhealt⟩
  obtain ⟨engine, hlookup, hengine⟩ := hlookup
  have happly : checkpointStore.applySourcePage act prepared.commit c.store =
      (.ok (), c.store.accept act prepared.commit) := by
    show c.store.applySourcePage act prepared.commit = _
    unfold CheckpointStore.applySourcePage
    rw [hreliab, hprog, preparePage_expected hprep]
    simp
  have hcall : c.engine.applySourcePage checkpointStore act capture page c.store =
      (.ok prepared, engine.cache act.id (some prepared.commit.next),
        c.store.accept act prepared.commit) := by
    unfold SourceEngine.applySourcePage
    simp only [hhealt, Bool.false_eq_true, if_false, hlookup, hprep, happly]
  exact ⟨_, .accepted hpage hcall, hengine⟩

lemma uninterrupted_run {progress last : SourceProgress} (k : Nat)
    (hk : k ≤ pages.length)
    (h : cleanRun act capture progress (pages.take k) = .ok (commits, last)) :
    ∃ c : PageRun CheckpointStore,
      (pageHost checkpointStore act capture pages).Run
        ⟨{}, .new progress [], 0⟩ (List.replicate k .attempt) c ∧
      c.acknowledged = k ∧ c.engine.poisoned = false ∧ c.store.failures = [] ∧
      c.store.documents act.id = last.document ∧
      c.store.transactions act.id = commits := by
  induction k generalizing commits last with
  | zero =>
    cases h
    exact ⟨_, .nil _, rfl, rfl, rfl, rfl, rfl⟩
  | succ k ih =>
    have hpage : pages[k]? = some (pages[k]) := List.getElem?_eq_getElem hk
    have htake : pages.take (k + 1) = pages.take k ++ [pages[k]] := by
      rw [List.take_add_one, hpage]
      rfl
    rw [htake] at h
    obtain ⟨before, middle, prepared, hbefore, hprep, rfl, rfl⟩ := cleanRun_append_inv h
    obtain ⟨c, hrun, rfl, hhealt, hreliab, hdocument, htransactions⟩ :=
      ih (Nat.le_of_succ_le hk) hbefore
    obtain ⟨engine, hstep, hengine⟩ := reliable_step (pageInvariant_run hrun).cached hhealt
      hreliab hdocument hpage hprep
    refine ⟨⟨engine, c.store.accept act prepared.commit, c.acknowledged + 1⟩, ?_, rfl,
      hengine, ?_, ?_, ?_⟩
    · rw [List.replicate_succ']
      exact hrun.snoc hstep
    · show c.store.failures.tail = []
      rw [hreliab]
      rfl
    · show Function.update c.store.documents _ _ act.id = _
      rw [Function.update_self]
    · show Function.update c.store.transactions _ _ act.id = _
      rw [Function.update_self, htransactions]

end Uninterrupted

/-- **Failed commits and restarts are transparent.**  Whatever fails and however
often the engine is rebuilt, the store holds what one engine commits without
interruption for the pages accepted so far, and the selector in memory is never
ahead of it. -/
theorem source_pages_transparent {pages : List SourceBatch} {start : σ} {r : PageRun σ}
    {actions : List PageAction}
    (hrun : (pageHost store act capture pages).Run ⟨{}, start, 0⟩ actions r) :
    (r.engine.selectors act.id = none ∨
      r.engine.selectors act.id = some (store.durable r.store act.id)) ∧
    ∃ clean : PageRun CheckpointStore,
      (pageHost checkpointStore act capture pages).Run
        ⟨{}, .new (store.durable start act.id) [], 0⟩
        (List.replicate r.acknowledged .attempt) clean ∧
      clean.acknowledged = r.acknowledged ∧
      store.committed r.store act.id =
        store.committed start act.id ++ clean.store.transactions act.id ∧
      store.durable r.store act.id = clean.store.progress act.id := by
  have hinv := pageInvariant_run hrun
  obtain ⟨commits, hclean, hcommitted⟩ := hinv.clean
  obtain ⟨c, hc, hacknowledged, -, -, hdocument, htransactions⟩ :=
    uninterrupted_run r.acknowledged hinv.bounded hclean
  refine ⟨hinv.cached, c, hc, hacknowledged, ?_, ?_⟩
  · rw [htransactions, hcommitted]
  · exact (CheckpointStore.progress_of_document hdocument).symm

end Apply

def userMessagePage : SourceBatch where
  events :=
    [.observation 1 none "a" 1 (mainObservation (userMessage "a") 1).toObservationDraft]
  next := 1
  hasMore := false

def interruptedRun : PageRun CheckpointStore :=
  let act := userMessageActivation 1 Nat.one_pos one_le_MAX_WINDOW_SIZE
  let attempt := @PageRun.attempt asciiPlatform _ (@checkpointStore asciiPlatform) act
    (fun _ _ => .ok none) [userMessagePage]
  let refused := attempt ⟨{}, .new {} [true], 0⟩
  attempt ⟨{}, refused.store, refused.acknowledged⟩

theorem source_pages_transparent_interruptedRun :
    ∃ clean : PageRun CheckpointStore, clean.acknowledged = 1 ∧
      interruptedRun.store.transactions ⟨⟨"local", "/work", .live⟩, "check", 1⟩ =
        clean.store.transactions ⟨⟨"local", "/work", .live⟩, "check", 1⟩ := by
  let platform := asciiPlatform
  let act := userMessageActivation 1 (by decide) (by decide)
  let capture : PageCapture := fun _ _ => .ok none
  let start : PageRun CheckpointStore := ⟨{}, .new {} [true], 0⟩
  let refused := start.attempt checkpointStore act capture [userMessagePage]
  have hrefused : refused.acknowledged = 0 := by decide
  have haccepted : interruptedRun.acknowledged = 1 := by decide +kernel
  have hrun : (pageHost checkpointStore act capture [userMessagePage]).Run start
      [.attempt, .restart, .attempt] interruptedRun :=
    .cons (PageRun.step_attempt (by decide))
      (.cons .restart (.cons (PageRun.step_attempt (by rw [hrefused]; decide)) (.nil _)))
  obtain ⟨-, clean, -, hclean, htransactions, -⟩ := source_pages_transparent hrun
  exact ⟨clean, hclean.trans haccepted, htransactions⟩

end Antiburn
