/-
The publication log of native evidence and the table of current values agree.

The updates and removals of the log are read as entries, and so is every current row.
`Agrees` says that the table holds the latest entry of each identity and that the
entries of one identity follow each other.  What a writer does to a store is a path of
`Change`s, each of which appends at most one entry: `Continues` collects the paths,
composes, and is all that is proved about a writer.
-/
import Antiburn.NativeEvidence
import Antiburn.Lib.Latest
import Antiburn.Bookkeeping
import Mathlib

namespace Antiburn

/-! ### Entries -/

/-- An update or a removal of the log. -/
structure EvidenceEntry extends PublishedEvidence where
  sequence : Nat
  sourceFormat : SourceFormat
  deriving DecidableEq

namespace EvidenceEntry

def key (entry : EvidenceEntry) : NativeKey := (entry.sourceFormat, entry.identity)

def publication (entry : EvidenceEntry) : NativePublication :=
  ⟨entry.sequence, entry.sourceFormat, .inl entry.toPublishedEvidence⟩

end EvidenceEntry

def NativePublication.entry? (publication : NativePublication) : Option EvidenceEntry :=
  match publication.content with
  | .inl evidence => some ⟨evidence, publication.sequence, publication.sourceFormat⟩
  | .inr _ => none

def CurrentEvidence.entry (row : CurrentEvidence) : EvidenceEntry where
  identity := row.identity
  position := row.position
  revision := row.revision
  payload := row.payload
  removed := row.isRemoved
  eventKind := row.eventKind
  firstEligible := row.firstEligible
  sequence := row.publicationSequence
  sourceFormat := row.sourceFormat

@[simp] lemma CurrentEvidence.entry_key (row : CurrentEvidence) : row.entry.key = row.key := rfl

/-- The updates and the removals of the log, in order. -/
def NativeEvidenceStore.log (store : NativeEvidenceStore) : List EvidenceEntry :=
  store.publications.filterMap NativePublication.entry?

def NativeEvidenceStore.entries (store : NativeEvidenceStore) : List EvidenceEntry :=
  store.current.map CurrentEvidence.entry

/-! ### Identities -/

def identityKind : NativeIdentity → EvidenceEventKind
  | [first, _, _] => if first = .text "turn_end" then .responseCycle else .userMessage
  | [first, _, _, _, _] => if first = .text "tool_call" then .toolCall else .assistantMessage
  | _ => .toolResult

lemma identityKind_nativeIdentity (result : ToolResultObservation) :
    identityKind (nativeIdentity result) = .toolResult := by
  unfold nativeIdentity
  split_ifs
  · rfl
  · rfl

/-- **Payloads of different kinds have different identities.** -/
lemma identityKind_identity (payload : NativeEvidencePayload) :
    identityKind payload.identity = payload.kind := by
  cases payload with
  | toolResult result => exact identityKind_nativeIdentity result
  | userMessage | responseCycle => rfl
  | publicMessage message =>
    rcases message with ⟨format, session, record, part, call, pos, revision, change, eligible,
      ctx, payload, rest⟩
    cases payload with
    | assistantText | toolCall => rfl

/-! ### What the writers do to a payload -/

namespace NativeEvidencePayload

variable (payload old : NativeEvidencePayload) (removal : NativeMessageRemoval) (revision : Nat)

lemma kind_removedBy : (payload.removedBy removal revision).kind = payload.kind := by
  cases payload <;> rfl

lemma revision_removedBy : (payload.removedBy removal revision).revision = revision := by
  cases payload <;> rfl

lemma kind_keepContext : (old.keepContext payload).kind = payload.kind := by
  cases payload <;> cases old <;> rfl

lemma revision_keepContext : (old.keepContext payload).revision = payload.revision := by
  cases payload <;> cases old <;> rfl

lemma removed_keepContext : (old.keepContext payload).removed = payload.removed := by
  cases payload <;> cases old <;> rfl

end NativeEvidencePayload

lemma NativeEvidenceStore.withContext_eq (prev : Option CurrentEvidence)
    (payload : NativeEvidencePayload) :
    (withContext prev payload).kind = payload.kind ∧
      (withContext prev payload).revision = payload.revision ∧
      (withContext prev payload).removed = payload.removed := by
  cases prev with
  | none => exact ⟨rfl, rfl, rfl⟩
  | some row =>
    rw [withContext]
    split_ifs
    · exact ⟨payload.kind_keepContext _, payload.revision_keepContext _,
        payload.removed_keepContext _⟩
    · exact ⟨rfl, rfl, rfl⟩

lemma ToolResultObservation.keepFinal_eq (old result : ToolResultObservation) :
    (old.keepFinal result).sourceFormat = result.sourceFormat ∧
      (old.keepFinal result).revision = result.revision ∧
      (old.keepFinal result).change = result.change := by
  unfold keepFinal
  split_ifs
  · exact ⟨rfl, rfl, rfl⟩
  · exact ⟨rfl, rfl, rfl⟩

/-! ### Agreement -/

namespace EvidenceEntry

structure Before (earlier later : EvidenceEntry) : Prop where
  revision : earlier.revision ≤ later.revision
  removed : earlier.removed = true → later.removed = true
  firstEligible : ∀ first, earlier.firstEligible = some first → later.firstEligible = some first
  eventKind : later.eventKind = earlier.eventKind

lemma Before.refl (entry : EvidenceEntry) : entry.Before entry :=
  ⟨le_rfl, id, fun _ => id, rfl⟩

lemma Before.trans {a b c : EvidenceEntry} (h : a.Before b) (h' : b.Before c) : a.Before c :=
  ⟨h.revision.trans h'.revision, fun hrem => h'.removed (h.removed hrem),
    fun first hfirst => h'.firstEligible first (h.firstEligible first hfirst),
    h'.eventKind.trans h.eventKind⟩

structure Fits (entry : EvidenceEntry) : Prop where
  kind : entry.payload.kind = entry.eventKind
  identity : identityKind entry.identity = entry.eventKind
  revision : entry.payload.revision = entry.revision
  firstEligible : entry.eventKind = .toolResult → entry.firstEligible = none

end EvidenceEntry

namespace NativeEvidenceStore

/-- **The log and the table agree.** -/
structure Agrees (store : NativeEvidenceStore) : Prop where
  latest : ∀ key, Log.latest EvidenceEntry.key key store.log =
    Table.lookup EvidenceEntry.key key store.entries
  follows : Log.Follows EvidenceEntry.key EvidenceEntry.Before store.log
  fits : ∀ entry ∈ store.log, entry.Fits
  nodup : (store.entries.map EvidenceEntry.key).Nodup
  ordered : store.publications.Pairwise fun a b => a.sequence < b.sequence
  bounded : ∀ publication ∈ store.publications, publication.sequence ≤ store.sequence

structure Writes (before : NativeEvidenceStore) (entry : EvidenceEntry)
    (after : NativeEvidenceStore) : Prop where
  publications : after.publications = before.publications ++ [entry.publication]
  sequence : entry.sequence = before.sequence + 1
  last : after.sequence = entry.sequence
  rows : ∀ key, Table.lookup EvidenceEntry.key key after.entries =
    if key = entry.key then some entry else Table.lookup EvidenceEntry.key key before.entries
  nodup : (before.entries.map EvidenceEntry.key).Nodup →
    (after.entries.map EvidenceEntry.key).Nodup
  fits : entry.Fits
  follows : ∀ old, Table.lookup EvidenceEntry.key entry.key before.entries = some old →
    old.Before entry

inductive Change (before : NativeEvidenceStore) : NativeEvidenceStore → Prop
  | coverage (format coverage) : Change before (before.publish format (.inr coverage))
  | write {entry after} (h : before.Writes entry after) : Change before after
  /-- Neither the log nor the entries of the table change. -/
  | aside {after} (hpublications : after.publications = before.publications)
      (hsequence : before.sequence ≤ after.sequence) (hentries : after.entries = before.entries) :
      Change before after

variable {before mid after store : NativeEvidenceStore} {format : SourceFormat}
  {identity : NativeIdentity} {row : CurrentEvidence}

lemma ordered_append {publications : List NativePublication} (publication : NativePublication)
    {sequence : Nat} (hord : publications.Pairwise fun a b => a.sequence < b.sequence)
    (hboun : ∀ publication ∈ publications, publication.sequence ≤ sequence)
    (hsequence : publication.sequence = sequence + 1) :
    (publications ++ [publication]).Pairwise (fun a b => a.sequence < b.sequence) ∧
      ∀ other ∈ publications ++ [publication], other.sequence ≤ sequence + 1 := by
  refine ⟨List.pairwise_append.mpr ⟨hord, List.pairwise_singleton _ _, ?_⟩, ?_⟩
  · intro a hmem b hb
    rw [List.mem_singleton.mp hb, hsequence]
    exact Nat.lt_succ_of_le (hboun a hmem)
  · intro other hmem
    rcases List.mem_append.mp hmem with hmem | hmem
    · exact (hboun other hmem).trans (Nat.le_succ sequence)
    · rw [List.mem_singleton.mp hmem, hsequence]

/-- **One change keeps the agreement.** -/
lemma Agrees.change (h : before.Agrees) (hchange : Change before after) : after.Agrees := by
  cases hchange with
  | coverage format coverage =>
    obtain ⟨hord, hboun⟩ := ordered_append ⟨before.sequence + 1, format, .inr coverage⟩
      h.ordered h.bounded rfl
    have hlog : (before.publish format (.inr coverage)).log = before.log := by
      show (before.publications ++ [_]).filterMap _ = _
      rw [List.filterMap_append]
      exact List.append_nil _
    refine ⟨fun key => ?_, ?_, ?_, h.nodup, hord, hboun⟩
    · rw [hlog]
      exact h.latest key
    · rw [hlog]
      exact h.follows
    · rw [hlog]
      exact h.fits
  | @write entry _ hwrites =>
    obtain ⟨hord, hboun⟩ := ordered_append entry.publication h.ordered h.bounded
      hwrites.sequence
    have hlog : after.log = before.log ++ [entry] := by
      rw [log, hwrites.publications, List.filterMap_append]
      rfl
    refine ⟨fun key => ?_, ?_, fun other hmem => ?_, hwrites.nodup h.nodup, ?_, ?_⟩
    · rw [hlog, Log.latest_append, hwrites.rows, h.latest]
    · rw [hlog]
      refine Log.follows_append EvidenceEntry.Before.refl (fun _ _ _ => .trans) h.follows ?_
      intro last hlast
      rw [h.latest] at hlast
      exact hwrites.follows last hlast
    · rw [hlog] at hmem
      rcases List.mem_append.mp hmem with hmem | hmem
      · exact h.fits other hmem
      · rw [List.mem_singleton.mp hmem]
        exact hwrites.fits
    · rw [hwrites.publications]
      exact hord
    · rw [hwrites.publications, hwrites.last, hwrites.sequence]
      exact hboun
  | aside hpublications hsequence hentries =>
    have hlog : after.log = before.log := by rw [log, hpublications, log]
    refine ⟨fun key => ?_, ?_, ?_, ?_, ?_, fun publication hmem => ?_⟩
    · rw [hlog, hentries]
      exact h.latest key
    · rw [hlog]
      exact h.follows
    · rw [hlog]
      exact h.fits
    · rw [hentries]
      exact h.nodup
    · rw [hpublications]
      exact h.ordered
    · rw [hpublications] at hmem
      exact (h.bounded publication hmem).trans hsequence

/-- What a writer does to a store whose log and table agree. -/
def Continues (before after : NativeEvidenceStore) : Prop :=
  before.Agrees → Relation.ReflTransGen Change before after

/-- **A writer keeps the agreement.** -/
lemma Continues.agrees (h : Continues before after) (hagrees : before.Agrees) :
    after.Agrees := by
  have hchanges := h hagrees
  clear h
  induction hchanges with
  | refl => exact hagrees
  | tail _ hchange ih => exact ih.change hchange

namespace Continues

lemma refl (store : NativeEvidenceStore) : Continues store store := fun _ => .refl

lemma trans (h : Continues before mid) (h' : Continues mid after) : Continues before after :=
  fun hagrees => (h hagrees).trans (h' (h.agrees hagrees))

lemma of_change (h : before.Agrees → Change before after) : Continues before after :=
  fun hagrees => .single (h hagrees)

lemma ite {cond : Prop} [Decidable cond] (h : cond → Continues before after) :
    Continues before (if cond then after else before) := by
  split_ifs with hcond
  · exact h hcond
  · exact refl before

end Continues

/-! ### Rows -/

section Rows

variable {set : CurrentEvidence → CurrentEvidence} {evidence : PublishedEvidence}
  {old : CurrentEvidence}

lemma lookup_entries (store : NativeEvidenceStore) (key : NativeKey) :
    Table.lookup EvidenceEntry.key key store.entries =
      (store.current? key.1 key.2).map CurrentEvidence.entry :=
  Table.lookup_map CurrentEvidence.entry_key key store.current

lemma map_key_entries (store : NativeEvidenceStore) :
    store.entries.map EvidenceEntry.key = store.current.map CurrentEvidence.key := by
  rw [entries, List.map_map]
  rfl

lemma lookup_of_current? (hrow : store.current? format identity = some row) :
    Table.lookup EvidenceEntry.key (format, identity) store.entries = some row.entry := by
  rw [lookup_entries, hrow]
  rfl

lemma key_of_current? (hrow : store.current? format identity = some row) :
    row.sourceFormat = format ∧ row.identity = identity := by
  have hkey := (Table.lookup_eq_some hrow).2
  exact ⟨congrArg Prod.fst hkey, congrArg Prod.snd hkey⟩

section

variable (h : store.Agrees) (hrow : store.current? format identity = some row)
include h hrow

lemma Agrees.fits_row :
    row.entry.Fits := by
  have hlatest := h.latest (format, identity)
  rw [lookup_of_current? hrow] at hlatest
  exact h.fits _ (Log.latest_eq_some hlatest).1

lemma Agrees.kind_of_current? : row.eventKind = identityKind identity := by
  rw [← (key_of_current? hrow).2]
  exact (h.fits_row hrow).identity.symm

end

lemma lookup_updateCurrent (hset : ∀ row, (set row).key = row.key) (key : NativeKey) :
    Table.lookup CurrentEvidence.key key (store.updateCurrent format identity set).current =
      if key = (format, identity) then (store.current? format identity).map set
      else Table.lookup CurrentEvidence.key key store.current := by
  show Table.lookup _ _ (Table.update _ _ _) = _
  rw [Table.lookup_update hset]
  split_ifs with hkey
  · subst hkey
    rcases hrow : store.current? format identity with - | row
    · rw [show Table.lookup CurrentEvidence.key (format, identity) store.current = none from hrow]
      rfl
    · rw [show Table.lookup CurrentEvidence.key (format, identity) store.current = some row
        from hrow]
      refine congrArg some (if_pos ?_)
      rw [(Table.lookup_eq_some hrow).2]
      exact decide_eq_true rfl
  · rcases hrow : Table.lookup CurrentEvidence.key key store.current with - | row
    · rfl
    · refine congrArg some (if_neg ?_)
      rw [(Table.lookup_eq_some hrow).2, decide_eq_true_iff]
      exact hkey

lemma writes_updateCurrent (hold : store.current? format identity = some old)
    (hset : ∀ row, (set row).key = row.key)
    (hentry : (set old).entry = ⟨evidence, store.sequence + 1, format⟩)
    (hfits : (set old).entry.Fits) (hfollows : old.entry.Before (set old).entry) :
    store.Writes (set old).entry
      ((store.publish format (.inl evidence)).updateCurrent format identity set) := by
  have hkey : (set old).entry.key = (format, identity) := by
    rw [CurrentEvidence.entry_key, hset, (Table.lookup_eq_some hold).2]
  refine ⟨?_, congrArg EvidenceEntry.sequence hentry, ?_, fun key => ?_, fun hnodup => ?_, hfits,
    fun found hfound => ?_⟩
  · rw [hentry]
    rfl
  · rw [hentry]
    rfl
  · rw [hkey, lookup_entries, lookup_entries, current?, lookup_updateCurrent hset]
    split_ifs
    · show ((store.current? format identity).map set).map _ = _
      rw [hold]
      rfl
    · rfl
  · rw [map_key_entries] at hnodup ⊢
    show ((Table.update _ set store.current).map CurrentEvidence.key).Nodup
    rwa [Table.map_key_update hset]
  · rw [hkey, lookup_of_current? hold] at hfound
    rw [← Option.some.inj hfound]
    exact hfollows

lemma writes_insert (hnone : Table.lookup CurrentEvidence.key row.key store.current = none)
    (hentry : row.entry = ⟨evidence, store.sequence + 1, format⟩) (hfits : row.entry.Fits) :
    store.Writes row.entry ((store.publish format (.inl evidence)).writeCurrent row set) := by
  have hcur : ((store.publish format (.inl evidence)).writeCurrent row set).current =
      Table.insert row store.current := by
    show (if (Table.lookup CurrentEvidence.key row.key store.current).isSome then _ else _) = _
    rw [hnone]
    rfl
  refine ⟨?_, congrArg EvidenceEntry.sequence hentry, ?_, fun key => ?_, fun hnodup => ?_, hfits,
    fun found hfound => ?_⟩
  · rw [hentry]
    rfl
  · rw [hentry]
    rfl
  · rw [row.entry_key, lookup_entries, lookup_entries, current?, current?, hcur,
      Table.lookup_insert]
    rcases eq_or_ne key row.key with rfl | hne
    · rw [hnone, Option.none_or, if_pos rfl, if_pos rfl]
      rfl
    · rw [if_neg hne.symm, Option.or_none, if_neg hne]
  · rw [map_key_entries] at hnodup ⊢
    rw [hcur, Table.insert, List.map_append, List.map_singleton]
    refine List.nodup_append.mpr ⟨hnodup, List.nodup_singleton _, fun key hmem other hother => ?_⟩
    obtain ⟨present, hpres, rfl⟩ := List.mem_map.mp hmem
    rw [List.mem_singleton.mp hother]
    intro heq
    have hfound := Table.lookup_of_mem hnodup hpres
    rw [heq, hnone] at hfound
    cases hfound
  · rw [row.entry_key, lookup_entries, current?, hnone] at hfound
    cases hfound

lemma writes_writeCurrent (hset : ∀ row, (set row).key = row.key)
    (hentry : row.entry = ⟨evidence, store.sequence + 1, format⟩)
    (hsame : ∀ old, store.current? format row.identity = some old → (set old).entry = row.entry)
    (hfits : row.entry.Fits)
    (hfollows : ∀ old, store.current? format row.identity = some old →
      old.entry.Before row.entry) :
    store.Writes row.entry ((store.publish format (.inl evidence)).writeCurrent row set) := by
  obtain rfl : row.sourceFormat = format := congrArg EvidenceEntry.sourceFormat hentry
  rcases hold : store.current? row.sourceFormat row.identity with - | old
  · exact writes_insert hold hentry hfits
  · have hrow := hsame old hold
    have hcur : (store.publish row.sourceFormat (.inl evidence)).writeCurrent row set =
        (store.publish row.sourceFormat (.inl evidence)).updateCurrent row.sourceFormat
          row.identity set := by
      refine congrArg (fun current => { store.publish row.sourceFormat (.inl evidence) with current })
        (if_pos ?_)
      show (store.current? row.sourceFormat row.identity).isSome = true
      rw [hold]
      rfl
    rw [hcur, ← hrow]
    refine writes_updateCurrent hold hset (hrow.trans hentry) ?_ ?_
    · rw [hrow]
      exact hfits
    · rw [hrow]
      exact hfollows old hold

end Rows

/-! ### Writers -/

section Writers

variable {session : String} {result : ToolResultObservation} {payload : NativeEvidencePayload}
  {live : Bool} {tx : NativeTransaction} {removal : NativeMessageRemoval}
  {policy : PublicationPolicy}

lemma continues_publishCoverage (store : NativeEvidenceStore) (format : SourceFormat)
    (hasResults complete : Bool) (reason : Option String) (kind : PublicationGapKind) :
    Continues store (store.publishCoverage format hasResults complete reason kind) :=
  .ite fun _ => .of_change fun _ => .coverage format ⟨complete, reason, kind⟩

lemma continues_writeToolResult
    (hidentity : identityKind identity = .toolResult)
    (hfresh : ∀ row, store.current? result.sourceFormat identity = some row →
      row.revision ≤ result.revision ∧ (row.isRemoved = true → result.change = .removal)) :
    Continues store (store.writeToolResult result identity) := by
  refine .of_change fun hagrees => ?_
  dsimp only [writeToolResult]
  refine .write (writes_writeCurrent ?_ rfl ?_ ?_ ?_)
  · intro _
    rfl
  · intro old hold
    -- the update leaves the kind and the first eligible publication, as the insert has them
    have hkind : old.eventKind = .toolResult := (hagrees.kind_of_current? hold).trans hidentity
    have hfirst : old.firstEligible = none := (hagrees.fits_row hold).firstEligible hkind
    obtain ⟨hformat, hsame⟩ : old.sourceFormat = result.sourceFormat ∧ old.identity = identity :=
      key_of_current? hold
    simp only [CurrentEvidence.entry, hkind, hfirst, hformat, hsame]
  · exact ⟨rfl, hidentity, rfl, fun _ => rfl⟩
  · intro old hold
    have hkind : old.eventKind = .toolResult := (hagrees.kind_of_current? hold).trans hidentity
    have hfirst : old.firstEligible = none := (hagrees.fits_row hold).firstEligible hkind
    obtain ⟨hrev, hrem⟩ := hfresh old hold
    refine ⟨hrev, fun h => beq_iff_eq.mpr (hrem h), fun first h => ?_, hkind.symm⟩
    rw [show old.entry.firstEligible = none from hfirst] at h
    cases h

/-- **A tool result continues the log.** -/
lemma continues_reconcileToolResult
    (h : store.reconcileToolResult session result = .ok after) : Continues store after := by
  obtain ⟨-, -, h⟩ := Except.of_bind_ok h
  obtain ⟨-, -, h⟩ := Except.of_bind_ok h
  have hidentity := identityKind_nativeIdentity result
  dsimp only at h
  rcases hold : store.current? result.sourceFormat (nativeIdentity result) with - | old
  · rw [hold] at h
    cases h
    refine continues_writeToolResult hidentity fun row hrow => ?_
    rw [hold] at hrow
    cases hrow
  rw [hold] at h
  dsimp only at h
  split_ifs at h with hrem
  · cases h
    exact .refl _
  rcases hpay : old.payload with tool | user | message | cycle
  · rw [hpay] at h
    dsimp only at h
    split_ifs at h with hstale hsame
    · cases h
      exact .refl _
    · cases h
      exact .refl _
    cases h
    obtain ⟨hformat, hrev, hchange⟩ := tool.keepFinal_eq result
    intro hagrees
    have hfits := hagrees.fits_row hold
    have htool : tool.revision = old.revision := by
      have hpub : old.payload.revision = old.revision := hfits.revision
      rwa [hpay] at hpub
    refine continues_writeToolResult hidentity (fun row hrow => ?_) hagrees
    rw [hformat, hold] at hrow
    cases hrow
    rw [hrev, hchange, ← htool]
    refine ⟨not_lt.mp hstale, fun hgone => ?_⟩
    cases hto : result.change with
    | removal => rfl
    | update =>
      refine absurd ?_ hrem
      rw [hto, hgone]
      rfl
  all_goals
    rw [hpay] at h
    cases h

lemma continues_sweepToolResult (hrow : store.current? row.sourceFormat row.identity = some row)
    (hkind : row.eventKind = .toolResult) (hpres : row.isRemoved = false) :
    Continues store (store.sweepToolResult row) := by
  refine .of_change fun hagrees => .write (writes_updateCurrent hrow ?_ ?_ ?_ ?_)
  · intro other
    split_ifs
    · rfl
    · rfl
  all_goals
    rw [if_neg (by rw [hpres]; exact Bool.false_ne_true)]
    have hfits := hagrees.fits_row hrow
    have hfirst : row.firstEligible = none := hfits.firstEligible hkind
  · simp only [CurrentEvidence.entry, hkind, hfirst]
    rfl
  · exact ⟨hfits.kind, hfits.identity, hfits.revision, hfits.firstEligible⟩
  · exact ⟨le_rfl, fun _ => rfl, fun _ => id, rfl⟩

lemma current?_sweepToolResult (hne : (format, identity) ≠ row.key) :
    (store.sweepToolResult row).current? format identity = store.current? format identity := by
  show Table.lookup _ _ (updateCurrent _ _ _ _).current = _
  rw [lookup_updateCurrent]
  · exact if_neg hne
  · intro other
    split_ifs
    · rfl
    · rfl

lemma continues_foldl_sweepToolResult {rows : List CurrentEvidence}
    (hrows : ∀ row ∈ rows, store.current? row.sourceFormat row.identity = some row ∧
      row.eventKind = .toolResult ∧ row.isRemoved = false)
    (hnodup : (rows.map CurrentEvidence.key).Nodup) :
    Continues store (rows.foldl sweepToolResult store) := by
  induction rows generalizing store with
  | nil => exact .refl store
  | cons row rows ih =>
    obtain ⟨hrow, hkind, hpres⟩ := hrows row (.head _)
    rw [List.map_cons, List.nodup_cons] at hnodup
    refine (continues_sweepToolResult hrow hkind hpres).trans (ih (fun other hmem => ?_) hnodup.2)
    obtain ⟨hother, hprop⟩ := hrows other (.tail _ hmem)
    refine ⟨?_, hprop⟩
    rw [current?_sweepToolResult, hother]
    intro heq
    exact hnodup.1 (heq ▸ List.mem_map_of_mem (f := CurrentEvidence.key) hmem)

lemma continues_sweep (store : NativeEvidenceStore) (batch : ToolResultBatch) :
    Continues store (store.sweep batch) := by
  refine .ite fun _ hagrees => ?_
  have hnodup : (store.current.map CurrentEvidence.key).Nodup := by
    rw [← map_key_entries]
    exact hagrees.nodup
  refine continues_foldl_sweepToolResult (fun row hmem => ?_) ?_ hagrees
  · obtain ⟨hmem, hleft⟩ := List.mem_filter.mp hmem
    simp only [Bool.and_eq_true, Bool.not_eq_true', beq_iff_eq] at hleft
    exact ⟨Table.lookup_of_mem hnodup hmem, hleft.1.2, hleft.1.1.2⟩
  · exact (List.filter_sublist.map CurrentEvidence.key).nodup hnodup

/-- **A snapshot, complete or not, continues the log.** -/
lemma continues_reconcileWithPolicy {batch : ToolResultBatch}
    (h : store.reconcileWithPolicy session batch policy = .ok after) : Continues store after := by
  obtain ⟨reconciled, hrecon, h⟩ := Except.of_bind_ok h
  cases h
  have hress : Continues _ reconciled :=
    Except.foldlM_rel Continues.refl (fun _ _ _ => .trans)
      (fun _ _ _ _ hresult => continues_reconcileToolResult hresult) hrecon
  have hswept : Continues store (reconciled.sweep batch) := by
    refine (Continues.trans ?_ hress).trans (continues_sweep reconciled batch)
    rcases policy.historyComplete with - | complete
    · exact .refl store
    · dsimp only
      split_ifs
      · exact .refl store
      · exact continues_publishCoverage _ _ _ _ _ _
  split_ifs
  · exact hswept
  · exact hswept.trans (continues_publishCoverage _ _ _ _ _ _)

/-- **Evidence of another kind continues the log.** -/
lemma continues_upsert (hkind : payload.kind ≠ .toolResult)
    (h : store.upsert tx session format payload live = .ok after) : Continues store after := by
  obtain ⟨-, -, h⟩ := Except.of_bind_ok h
  obtain ⟨-, -, h⟩ := Except.of_bind_ok h
  dsimp only at h
  split_ifs at h with hstale hsame hbound
  · cases h
    exact .refl _
  · cases h
    exact .refl _
  · cases h
    exact .refl _
  cases h
  obtain ⟨hsameKind, hrev, hrem⟩ :=
    withContext_eq (store.current? format payload.identity) payload
  refine .of_change fun hagrees => ?_
  dsimp only [writeEvidence]
  refine .write (writes_writeCurrent ?_ rfl ?_ ?_ ?_)
  · intro _
    rfl
  · intro old hold
    obtain ⟨hformat, hsame⟩ : old.sourceFormat = format ∧ old.identity = payload.identity :=
      key_of_current? hold
    have hkindOld : old.eventKind = payload.kind :=
      (hagrees.kind_of_current? hold).trans (identityKind_identity payload)
    simp only [CurrentEvidence.entry, hformat, hsame, hkindOld, hsameKind]
  · refine ⟨rfl, ?_, rfl, fun htool => absurd ?_ hkind⟩
    · exact (identityKind_identity payload).trans hsameKind.symm
    · exact hsameKind.symm.trans htool
  · intro old hold
    replace hold : store.current? format payload.identity = some old := hold
    have hkindOld : old.eventKind = payload.kind :=
      (hagrees.kind_of_current? hold).trans (identityKind_identity payload)
    rw [hold] at hstale
    simp only [Option.any_some, Bool.or_eq_true, Bool.and_eq_true, decide_eq_true_eq,
      Bool.not_eq_true', not_or, not_and, not_lt, Bool.not_eq_false] at hstale
    refine ⟨?_, fun hgone => ?_, fun first hfirst => ?_, ?_⟩
    · exact hstale.1.trans hrev.ge
    · exact hrem.trans (hstale.2 hgone)
    · show Option.or (Option.bind (store.current? format payload.identity) _) _ = some first
      rw [hold]
      show Option.or old.firstEligible _ = some first
      rw [show old.firstEligible = some first from hfirst]
      rfl
    · exact hsameKind.trans hkindOld.symm

/-- **The removal of a message continues the log.** -/
lemma continues_removeCurrent
    (h : store.removeCurrent format removal identity = .ok after) : Continues store after := by
  unfold removeCurrent at h
  rcases hold : store.current? format identity with - | old
  · rw [hold] at h
    cases h
  rw [hold] at h
  obtain ⟨-, -, h⟩ := Except.of_bind_ok h
  cases h
  obtain ⟨hformat, hsame⟩ := key_of_current? hold
  refine .of_change fun hagrees => .write (writes_updateCurrent hold ?_ ?_ ?_ ?_)
  · intro _
    rfl
  · simp only [CurrentEvidence.entry, hformat, hsame]
    rfl
  · have hfits := hagrees.fits_row hold
    exact ⟨(old.payload.kind_removedBy _ _).trans hfits.kind, hfits.identity,
      old.payload.revision_removedBy _ _, hfits.firstEligible⟩
  · refine ⟨?_, fun _ => rfl, fun _ => id, rfl⟩
    exact (Nat.le_succ _).trans (le_max_right _ _)

lemma continues_owner (store : NativeEvidenceStore) (owner : Option String) :
    Continues store (store.updateCurrent format identity fun row =>
      { row with ownerMessageId := owner }) := by
  refine .of_change fun _ => .aside rfl le_rfl ?_
  show (Table.update _ _ store.current).map CurrentEvidence.entry = store.entries
  rw [entries, Table.update, List.map_map]
  refine List.map_congr_left fun row _ => ?_
  show CurrentEvidence.entry (if _ then _ else row) = row.entry
  split_ifs
  · rfl
  · rfl

end Writers

/-! ### Pages -/

section Pages

variable {session : String} {tx : NativeTransaction} {policy : PublicationPolicy}
  {batch : NativeEvidenceBatch} {progress progress' : PageProgress}
  {operation : NativeEvidenceStore → Except StoreError NativeEvidenceStore}

section

variable (hoper : ∀ store after, operation store = .ok after → Continues store after)
include hoper

lemma continues_output (h : progress.output tx operation = .ok progress') :
    Continues progress.store progress'.store := by
  obtain ⟨after, hafter, h⟩ := Except.of_bind_ok h
  dsimp only at h
  split_ifs at h
  · obtain ⟨-, -, h⟩ := Except.of_bind_ok h
    cases h
    exact .refl _
  · cases h
    exact hoper _ _ hafter

lemma continues_next (h : progress.next tx operation = .ok progress') :
    Continues progress.store progress'.store := by
  unfold PageProgress.next at h
  split_ifs at h
  · cases h
    exact .refl _
  · exact continues_output hoper h

end

lemma continues_next_coverage {format : SourceFormat} {hasResults complete : Bool}
    {reason : Option String} {kind : PublicationGapKind}
    (h : (progress.next tx fun store =>
      .ok (store.publishCoverage format hasResults complete reason kind)) = .ok progress') :
    Continues progress.store progress'.store := by
  refine continues_next (fun store after hafter => ?_) h
  rw [← Except.ok.inj hafter]
  exact continues_publishCoverage _ _ _ _ _ _

lemma continues_removeMessage {format : SourceFormat} {removal : NativeMessageRemoval}
    (h : progress.removeMessage tx format removal = .ok progress') :
    Continues progress.store progress'.store := by
  unfold PageProgress.removeMessage at h
  split at h
  · split_ifs at h
    · cases h
      exact .refl _
    · exact continues_next_coverage h
  · refine Except.foldlM_rel (R := fun before after : PageProgress =>
      Continues before.store after.store) (fun _ => .refl _) (fun _ _ _ => .trans) ?_ h
    intro before identity _ after hafter
    exact continues_next (fun _ _ hrem => continues_removeCurrent hrem) hafter

/-- **A message of a page continues the log.** -/
lemma continues_writeMessage {payload : NativeEvidencePayload} {live : Bool}
    (h : PageProgress.writeMessage tx session batch policy payload live store = .ok after) :
    Continues store after := by
  cases payload with
  | toolResult result =>
    obtain ⟨reconciled, hrecon, h⟩ := Except.of_bind_ok h
    cases h
    exact (continues_reconcileWithPolicy hrecon).trans (continues_owner _ _)
  | userMessage message | responseCycle cycle => exact continues_upsert (by intro hkind; cases hkind) h
  | publicMessage message =>
    refine continues_upsert ?_ h
    rcases message with ⟨_, _, _, _, _, _, _, _, _, _, payload, _⟩
    cases payload with
    | assistantText | toolCall => intro hkind; cases hkind

/-- **Each event of a page continues the log.** -/
lemma continues_event {event : NativeEvidenceEvent}
    (h : progress.event tx session batch policy event = .ok progress') :
    Continues progress.store progress'.store := by
  unfold PageProgress.event at h
  by_cases hstop : progress.stopped = true
  · rw [if_pos hstop] at h
    cases h
    exact .refl _
  rw [if_neg hstop] at h
  rcases event with ⟨fact, live⟩
  cases fact with
  | message message =>
    obtain ⟨-, -, h⟩ := Except.of_bind_ok h
    split_ifs at h
    · cases h
      exact .refl _
    · exact continues_next (fun _ _ hwrit => continues_writeMessage hwrit) h
  | responseCycle cycle =>
    obtain ⟨-, -, h⟩ := Except.of_bind_ok h
    split_ifs at h
    · cases h
      exact .refl _
    · obtain ⟨-, -, h⟩ := Except.of_bind_ok h
      exact continues_next (fun _ _ hwrit =>
        continues_upsert (by intro hkind; cases hkind) hwrit) h
  | activity activity =>
    obtain ⟨-, -, h⟩ := Except.of_bind_ok h
    dsimp only at h
    split_ifs at h
    · obtain ⟨-, -, h⟩ := Except.of_bind_ok h
      cases h
      exact .refl _
    · cases h
      exact .refl _
  | sessionSelection selection =>
    obtain ⟨-, -, h⟩ := Except.of_bind_ok h
    obtain ⟨-, -, h⟩ := Except.of_bind_ok h
    cases h
    exact .refl _
  | messageRemoval removal =>
    obtain ⟨-, -, h⟩ := Except.of_bind_ok h
    exact continues_removeMessage h
  | admissionFailure failure =>
    obtain ⟨-, -, h⟩ := Except.of_bind_ok h
    obtain ⟨-, -, h⟩ := Except.of_bind_ok h
    exact continues_next_coverage h

lemma continues_pageCoverage {hasResults : Bool} {complete : Option Bool}
    (h : pageCoverage tx batch policy hasResults complete progress = .ok progress') :
    Continues progress.store progress'.store := by
  unfold pageCoverage at h
  split at h
  · split_ifs at h
    · cases h
      exact .refl _
    · exact continues_next_coverage h
  · cases h
    exact .refl _

lemma continues_invalidate (store : NativeEvidenceStore) (reason : Option String) :
    Continues store (store.invalidate reason) := by
  cases reason with
  | none => exact .refl store
  | some reason => exact .of_change fun _ => .aside rfl le_rfl rfl

/-- **A batch continues the log.** -/
lemma continues_reconcileEvidence {complete : Bool}
    (h : store.reconcileEvidence tx session batch policy = .ok (complete, after)) :
    Continues store after := by
  obtain ⟨reason, -, h⟩ := Except.of_bind_ok h
  obtain ⟨-, -, h⟩ := Except.of_bind_ok h
  obtain ⟨-, -, h⟩ := Except.of_bind_ok h
  obtain ⟨covered, hcov, h⟩ := Except.of_bind_ok h
  obtain ⟨published, hpub, h⟩ := Except.of_bind_ok h
  obtain ⟨final, hfinal, h⟩ := Except.of_bind_ok h
  cases h
  have hevents : Continues covered.store published.store :=
    Except.foldlM_rel (R := fun before after : PageProgress =>
      Continues before.store after.store) (fun _ => .refl _) (fun _ _ _ => .trans)
      (fun _ _ _ _ hevent => continues_event hevent) hpub
  exact (((continues_invalidate store reason).trans (continues_pageCoverage hcov)).trans
    hevents).trans (continues_pageCoverage hfinal)

end Pages

/-! ### Runs -/

section Runs

variable {session : String} {op : NativeEvidenceOp} {ops ops' : List NativeEvidenceOp}
  {sequence : Nat} {delivery : Option (Option String)}

lemma continues_commit (h : store.commit session op = .ok after) : Continues store after := by
  cases op with
  | evidence tx batch policy =>
    obtain ⟨⟨complete, published⟩, hpub, rfl⟩ := Except.map_ok_iff.mp h
    exact continues_reconcileEvidence hpub
  | snapshot batch policy => exact continues_reconcileWithPolicy h
  | otherSessions count =>
    cases h
    exact .of_change fun _ => .aside rfl (Nat.le_add_right _ _) rfl
  | changeDelivery delivery =>
    cases h
    exact .of_change fun _ => .aside rfl le_rfl rfl

/-- **A run continues the log.** -/
lemma continues_run (h : (nativeEvidence session).Run before ops after) :
    Continues before after := by
  induction h with
  | nil => exact .refl _
  | cons hstep _ ih =>
    rcases hstep with hcommd | ⟨-, rfl⟩
    · exact (continues_commit hcommd).trans ih
    · exact ih

lemma agrees_fresh (sequence : Nat) (delivery : Option (Option String)) :
    (fresh sequence delivery).Agrees where
  latest _ := rfl
  follows := .nil
  fits _ hmem := by cases hmem
  nodup := .nil
  ordered := .nil
  bounded _ hmem := by cases hmem

lemma Change.kept {key : NativeKey} {old : EvidenceEntry} (h : Change before after)
    (hold : Table.lookup EvidenceEntry.key key before.entries = some old) :
    ∃ new, Table.lookup EvidenceEntry.key key after.entries = some new ∧ old.Before new := by
  cases h with
  | coverage format coverage => exact ⟨old, hold, .refl old⟩
  | @write entry _ hwrites =>
    rw [hwrites.rows]
    split_ifs with hkey
    · exact ⟨entry, rfl, hwrites.follows old (hkey ▸ hold)⟩
    · exact ⟨old, hold, .refl old⟩
  | aside hpublications hsequence hentries =>
    rw [hentries]
    exact ⟨old, hold, .refl old⟩

lemma changes_kept {key : NativeKey} {old : EvidenceEntry}
    (h : Relation.ReflTransGen Change before after)
    (hold : Table.lookup EvidenceEntry.key key before.entries = some old) :
    ∃ new, Table.lookup EvidenceEntry.key key after.entries = some new ∧ old.Before new := by
  induction h with
  | refl => exact ⟨old, hold, .refl old⟩
  | tail _ hchange ih =>
    obtain ⟨mid, hmid, hbefore⟩ := ih
    obtain ⟨new, hnew, hbefore'⟩ := hchange.kept hmid
    exact ⟨new, hnew, hbefore.trans hbefore'⟩

lemma Agrees.current?_of_mem (h : store.Agrees) (hmem : row ∈ store.current) :
    store.current? row.sourceFormat row.identity = some row := by
  refine Table.lookup_of_mem ?_ hmem
  rw [← map_key_entries]
  exact h.nodup

/-- **The publication log and the table of current values agree** after every run: each
identity has the row of its latest update or removal, the sequences of the log increase,
and along an identity no revision decreases, no update follows a removal, the first
eligible publication stays and the kind is one.  A row of an earlier state is still there,
and what it holds follows in the same way. -/
theorem publications_agree_with_current
    (hbefore : (nativeEvidence session).Run (fresh sequence delivery) ops mid)
    (hafter : (nativeEvidence session).Run mid ops' store) :
    (∀ format identity, Log.latest EvidenceEntry.key (format, identity) store.log =
        (store.current? format identity).map CurrentEvidence.entry) ∧
      (∀ row ∈ store.current, Log.latest EvidenceEntry.key row.key store.log = some row.entry) ∧
      (store.publications.Pairwise fun a b => a.sequence < b.sequence) ∧
      Log.Follows EvidenceEntry.key EvidenceEntry.Before store.log ∧
      (∀ entry ∈ store.log, ∀ other ∈ store.log, entry.identity = other.identity →
        entry.payload.kind = other.payload.kind) ∧
      (∀ payload payload' : NativeEvidencePayload, payload.identity = payload'.identity →
        payload.kind = payload'.kind) ∧
      ∀ row ∈ mid.current, ∃ row' ∈ store.current, row'.key = row.key ∧
        row.entry.Before row'.entry := by
  have hmid : mid.Agrees := (continues_run hbefore).agrees (agrees_fresh sequence delivery)
  have hagrees : store.Agrees := (continues_run hafter).agrees hmid
  refine ⟨fun format identity => ?_, fun row hmem => ?_, hagrees.ordered, hagrees.follows,
    fun entry hmem other hmem' hidentity => ?_, fun payload payload' hidentity => ?_,
    fun row hmem => ?_⟩
  · rw [hagrees.latest, lookup_entries]
  · rw [hagrees.latest, lookup_entries]
    show (store.current? row.sourceFormat row.identity).map _ = _
    rw [hagrees.current?_of_mem hmem]
    rfl
  · have hfits := hagrees.fits entry hmem
    have hfits' := hagrees.fits other hmem'
    rw [hfits.kind, hfits'.kind, ← hfits.identity, ← hfits'.identity, hidentity]
  · rw [← identityKind_identity payload, ← identityKind_identity payload', hidentity]
  · obtain ⟨new, hnew, hkept⟩ := changes_kept (continues_run hafter hmid)
      (lookup_of_current? (hmid.current?_of_mem hmem))
    rw [lookup_entries] at hnew
    obtain ⟨row', hrow', rfl⟩ := Option.map_eq_some_iff.mp hnew
    obtain ⟨hmem', hkey⟩ := Table.lookup_eq_some hrow'
    exact ⟨row', hmem', hkey, hkept⟩

/-- A tool result, and a complete snapshot without it. -/
theorem publications_agree_after_sweep :
    let policy : PublicationPolicy := ⟨none, none, none, .partly, true⟩
    let result : ToolResultObservation :=
      ⟨.codexRolloutJsonl, "session", some "record", none, none, .jsonl 4 0, 7, .update, true, none, ""⟩
    let update := NativeEvidenceOp.snapshot ⟨.codexRolloutJsonl, [result], false⟩ policy
    let removal := NativeEvidenceOp.snapshot ⟨.codexRolloutJsonl, [], true⟩ policy
    ∃ mid store, (nativeEvidence "session").Run (fresh 0 none) [update] mid ∧
      (nativeEvidence "session").Run mid [removal] store ∧
      store.current.length = 1 ∧ store.log.map (·.removed) = [false, true] ∧
      ∀ row ∈ store.current, Log.latest EvidenceEntry.key row.key store.log = some row.entry := by
  intro policy result update removal
  have hbefore : (nativeEvidence "session").Run (fresh 0 none) [update] _ := .single (.inl rfl)
  refine ⟨_, _, hbefore, .single (.inl rfl), rfl, rfl, ?_⟩
  exact (publications_agree_with_current hbefore (.single (l := removal) (.inl rfl))).2.1

end Runs

end NativeEvidenceStore

end Antiburn
