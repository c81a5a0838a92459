/-
A source checkpoint as text, and when it restores.

A checkpoint wraps the message of a window in six objects and arrays, and the
reader gives up on the text beyond its recursion limit.  `Json.Readable` is what
a value must be to come back from its text; the selector keeps it of every
message that it received, and the checkpoint adds its six levels.
-/
import Antiburn.JsonReader
import Antiburn.Lib.Except
import Antiburn.SourceEngine

namespace Antiburn

/-! ### Readable values -/

namespace Object

variable {entries : Object} {key : String} {value : Json}

lemma mem_insert {entry : String × Json} (h : entry ∈ entries.insert key value) :
    entry = (key, value) ∨ entry ∈ entries := by
  induction entries with
  | nil => exact .inl (List.mem_singleton.mp h)
  | cons first rest ih =>
    obtain ⟨name, old⟩ := first
    unfold insert at h
    split_ifs at h
    · rcases List.mem_cons.mp h with h | h
      · exact .inl h
      · exact .inr (List.mem_cons_of_mem _ h)
    · exact List.mem_cons.mp h
    · rcases List.mem_cons.mp h with h | h
      · exact .inr (h ▸ List.mem_cons_self)
      · exact (ih h).imp_right (List.mem_cons_of_mem _)

lemma mem_extend {extra : Object} {entry : String × Json} (h : entry ∈ entries.extend extra) :
    entry ∈ extra ∨ entry ∈ entries := by
  induction extra generalizing entries with
  | nil => exact .inr h
  | cons first rest ih =>
    rcases @ih (entries.insert first.1 first.2) h with h | h
    · exact .inl (List.mem_cons_of_mem _ h)
    · rcases mem_insert h with rfl | h
      · exact .inl List.mem_cons_self
      · exact .inr h

lemma sorted_insert (h : (entries.map Prod.fst).Pairwise (· < ·)) :
    ((entries.insert key value).map Prod.fst).Pairwise (· < ·) := by
  induction entries with
  | nil => exact List.pairwise_singleton _ _
  | cons first rest ih =>
    obtain ⟨name, old⟩ := first
    rw [List.map_cons, List.pairwise_cons] at h
    unfold insert
    split_ifs with heq hlt
    · subst heq
      rw [List.map_cons, List.pairwise_cons]
      exact h
    · rw [List.map_cons, List.map_cons, List.pairwise_cons]
      refine ⟨fun other hother => ?_, List.pairwise_cons.mpr h⟩
      rcases List.mem_cons.mp hother with rfl | hother
      · exact hlt
      · exact hlt.trans (h.1 other hother)
    · rw [List.map_cons, List.pairwise_cons]
      refine ⟨fun other hother => ?_, ih h.2⟩
      obtain ⟨entry, hentry, rfl⟩ := List.mem_map.mp hother
      rcases mem_insert hentry with rfl | hentry
      · exact lt_of_le_of_ne (not_lt.mp hlt) heq
      · exact h.1 _ (List.mem_map_of_mem hentry)

lemma sorted_extend {extra : Object} (h : (entries.map Prod.fst).Pairwise (· < ·)) :
    ((entries.extend extra).map Prod.fst).Pairwise (· < ·) := by
  induction extra generalizing entries with
  | nil => exact h
  | cons first rest ih => exact ih (sorted_insert h)

end Object

namespace Json

/-- A value that the reader takes back within `room` levels: its objects are sorted,
its numbers are printed ones, and it nests no deeper. -/
structure Readable (printed : Number → Prop) (room : Nat) (value : Json) : Prop where
  sorted : value.Sorted
  numbers : value.Numbers printed
  nesting : value.nesting ≤ room

namespace Readable

variable {printed : Number → Prop} {room more : Nat} {value : Json}

lemma mono (h : value.Readable printed room) (hle : room ≤ more) : value.Readable printed more :=
  ⟨h.sorted, h.numbers, h.nesting.trans hle⟩

lemma string (text : String) : (Json.string text).Readable printed room :=
  ⟨trivial, trivial, by simp [Json.nesting]⟩

lemma bool (b : Bool) : (Json.bool b).Readable printed room :=
  ⟨trivial, trivial, by simp [Json.nesting]⟩

lemma number {number : Number} (h : printed number) :
    (Json.number number).Readable printed room :=
  ⟨trivial, h, by simp [Json.nesting]⟩

lemma array {items : List Json} (h : ∀ item ∈ items, item.Readable printed room) :
    (Json.array items).Readable printed (room + 1) := by
  refine ⟨?_, ?_, ?_⟩
  · show SortedItems items
    rw [sortedItems_iff]
    exact fun item hitem => (h item hitem).sorted
  · show NumbersItems printed items
    rw [numbersItems_iff]
    exact fun item hitem => (h item hitem).numbers
  · rw [Json.nesting, Nat.add_le_add_iff_right, nestingItems_le_iff]
    exact fun item hitem => (h item hitem).nesting

lemma object {entries : Object} (hsorted : (entries.map Prod.fst).Pairwise (· < ·))
    (h : ∀ entry ∈ entries, entry.2.Readable printed room) :
    (Json.object entries).Readable printed (room + 1) := by
  refine ⟨⟨hsorted, ?_⟩, ?_, ?_⟩
  · rw [sortedEntries_iff]
    exact fun entry hentry => (h entry hentry).sorted
  · show NumbersEntries printed entries
    rw [numbersEntries_iff]
    exact fun entry hentry => (h entry hentry).numbers
  · rw [Json.nesting, Nat.add_le_add_iff_right, nestingEntries_le_iff]
    exact fun entry hentry => (h entry hentry).nesting

lemma ofFields {fields : List (String × Json)}
    (h : ∀ field ∈ fields, field.2.Readable printed room) :
    (Json.object (Object.ofFields fields)).Readable printed (room + 1) := by
  refine object (Object.sorted_extend List.Pairwise.nil) fun entry hentry => ?_
  rcases Object.mem_extend hentry with hentry | hentry
  · exact h entry hentry
  · cases hentry

/-- **A readable value comes back from its text.** -/
lemma reads [Platform] (law : ReadsJson printed) (h : value.Readable printed RECURSION_LIMIT) :
    (Platform.readJson value.render).value = some value := by
  rw [law.reads value h.numbers, if_pos h.nesting, normalize_of_sorted value h.sorted]

end Readable

end Json

/-! ### Parts of a checkpoint -/

variable {item : SelectedMessage}

namespace JsonCodec

open Json (Readable)

variable {α : Type} {printed : Number → Prop} {room : Nat}

lemma readable_string (text : String) : (string.encode text).Readable printed room :=
  Readable.string text

lemma readable_bool (b : Bool) : (bool.encode b).Readable printed room := Readable.bool b

lemma readable_list {codec : JsonCodec α} {items : List α}
    (h : ∀ item ∈ items, (codec.encode item).Readable printed room) :
    (codec.list.encode items).Readable printed (room + 1) := by
  refine Readable.array fun value hvalue => ?_
  obtain ⟨item, hitem, rfl⟩ := List.mem_map.mp hvalue
  exact h item hitem

lemma readable_map {codec : JsonCodec α} {entries : Std.ExtTreeMap String α}
    (h : ∀ (key : String) (value : α), entries[key]? = some value → (codec.encode value).Readable printed room) :
    (codec.map.encode entries).Readable printed (room + 1) := by
  refine Readable.object ?_ fun entry hentry => ?_
  · rw [List.map_map, List.pairwise_map]
    refine entries.ordered_keys_toList.imp fun hlt => ?_
    exact compareOfLessAndEq_eq_lt.mp hlt
  · obtain ⟨⟨key, value⟩, hmem, rfl⟩ := List.mem_map.mp hentry
    exact h key value (Std.ExtTreeMap.mem_toList_iff_getElem?_eq_some.mp hmem)

lemma readable_selectedMessage (h : item.message.value.Readable printed room) :
    (selectedMessage.encode item).Readable printed (room + 2) := by
  have hmsg : (message.encode item.message).Readable printed (room + 1) := by
    refine Readable.ofFields fun field hfield => ?_
    simp only [List.mem_cons, List.not_mem_nil, or_false] at hfield
    rcases hfield with rfl | rfl
    · exact readable_string _
    · exact h
  refine Readable.ofFields fun field hfield => ?_
  simp only [List.mem_cons, List.not_mem_nil, or_false] at hfield
  rcases hfield with rfl | rfl | rfl | rfl
  · exact readable_string _
  · exact readable_string _
  · exact hmsg
  · exact readable_bool _

lemma readable_filterDiagnostic (diagnostic : FilterDiagnostic) :
    (filterDiagnostic.encode diagnostic).Readable printed 2 := by
  refine Readable.ofFields fun field hfield => ?_
  simp only [List.mem_cons, List.not_mem_nil, or_false] at hfield
  rcases hfield with rfl | rfl | rfl | rfl
  · exact readable_string _
  · exact readable_string _
  · exact readable_string _
  · exact readable_list fun limit _ => (readable_string limit : Readable printed 0 _)

lemma readable_branchSelection {selection : BranchSelection}
    (h : ∀ item ∈ selection.results, item.message.value.Readable printed room) :
    (branchSelection.encode selection).Readable printed (room + 4) := by
  refine Readable.ofFields fun field hfield => ?_
  rw [List.mem_append] at hfield
  rcases hfield with hfield | hfield
  · simp only [List.mem_cons, List.not_mem_nil, or_false] at hfield
    rcases hfield with rfl | rfl | rfl
    · exact readable_list fun item hitem => readable_selectedMessage (h item hitem)
    · exact readable_bool _
    · exact readable_bool _
  · rw [Option.mem_toList, Option.map_eq_some_iff] at hfield
    obtain ⟨diagnostic, -, rfl⟩ := hfield
    exact (readable_filterDiagnostic diagnostic).mono (by omega)

section Counts

variable (hcounts : ∀ n < 2 ^ 64, printed (.ofNat n))

include hcounts

lemma readable_u64 {n : Nat} (h : n < 2 ^ 64) : (u64.encode n).Readable printed room :=
  Readable.number (hcounts n h)

lemma readable_seenResult {seen : SeenResult} (h : seen.revision < 2 ^ 64) :
    (seenResult.encode seen).Readable printed 1 := by
  refine Readable.ofFields fun field hfield => ?_
  rw [List.mem_append] at hfield
  rcases hfield with hfield | hfield
  · simp only [List.mem_cons, List.not_mem_nil, or_false] at hfield
    rcases hfield with rfl | rfl | rfl | rfl
    · exact readable_bool _
    · exact readable_u64 hcounts h
    · exact readable_string _
    · exact readable_string _
  · split_ifs at hfield
    · cases hfield
    · rw [List.mem_singleton] at hfield
      subst hfield
      exact readable_string _

lemma readable_seenEntry {entry : ResultKey × SeenResult} (h : entry.2.revision < 2 ^ 64) :
    ((resultKey.pair seenResult).encode entry).Readable printed 2 := by
  have hkey : (resultKey.encode entry.1).Readable printed 1 := by
    refine Readable.array fun value hvalue => ?_
    simp only [List.mem_cons, List.not_mem_nil, or_false] at hvalue
    rcases hvalue with rfl | rfl
    · exact readable_string _
    · exact readable_string _
  refine Readable.array fun value hvalue => ?_
  simp only [List.mem_cons, List.not_mem_nil, or_false] at hvalue
  rcases hvalue with rfl | rfl
  · exact hkey
  · exact readable_seenResult hcounts h

end Counts

end JsonCodec

/-! ### Restorable progress -/

def CHECKPOINT_LEVELS : Nat := 6

structure SelectionState.Restorable (printed : Number → Prop) (room : Nat)
    (s : SelectionState) : Prop where
  messages : ∀ b, ∀ item ∈ (s.branch b).results, item.message.value.Readable printed room
  revisions : ∀ key, ∀ seen ∈ s.seen? key, seen.revision < 2 ^ 64

structure SourceProgress.Restorable (printed : Number → Prop) (room : Nat)
    (progress : SourceProgress) : Prop where
  publication : progress.publicationCursor < 2 ^ 64
  observation : progress.observationPosition < 2 ^ 64
  selection : progress.selection.Restorable printed room

variable {b : BranchId}

namespace SourceProgress

variable {printed : Number → Prop} {room : Nat} {progress : SourceProgress}

lemma Restorable.document (hcounts : ∀ n < 2 ^ 64, printed (.ofNat n))
    (h : progress.Restorable printed room) :
    progress.document.Readable printed (room + CHECKPOINT_LEVELS) := by
  have hbrs : (JsonCodec.branchSelection.map.encode progress.selection.branches).Readable
      printed (room + 5) := by
    refine JsonCodec.readable_map fun b selection hseln => ?_
    refine JsonCodec.readable_branchSelection fun item hitem => h.selection.messages b item ?_
    rw [SelectionState.branch, hseln]
    exact hitem
  have hseen : ((JsonCodec.resultKey.pair JsonCodec.seenResult).list.encode
      progress.selection.seenResults.toList).Readable printed 3 := by
    refine JsonCodec.readable_list fun entry hentry => ?_
    refine JsonCodec.readable_seenEntry hcounts (h.selection.revisions entry.1 entry.2 ?_)
    exact Std.ExtTreeMap.mem_toList_iff_getElem?_eq_some.mp hentry
  refine Json.Readable.ofFields fun field hfield => ?_
  simp only [List.mem_cons, List.not_mem_nil, or_false] at hfield
  rcases hfield with rfl | rfl | rfl | rfl | rfl
  · exact JsonCodec.readable_u64 hcounts (by decide)
  · exact JsonCodec.readable_u64 hcounts h.publication
  · exact JsonCodec.readable_u64 hcounts h.observation
  · exact hbrs
  · exact hseen.mono (by omega)

/-- **Restorable progress is restored.** -/
lemma Restorable.decode_encode [Platform] (law : ReadsJson printed)
    (h : progress.Restorable printed (RECURSION_LIMIT - CHECKPOINT_LEVELS)) :
    decode progress.encode = .ok progress :=
  progress.decode_encode ((h.document law.counts).reads law)

lemma nesting_message (h : item ∈ (progress.selection.branch b).results) :
    item.message.value.nesting + CHECKPOINT_LEVELS ≤ progress.document.nesting := by
  have hmsg : item.message.value.nesting < (JsonCodec.message.encode item.message).nesting := by
    refine Json.nesting_lt_of_get? "value" ?_
    simp [Object.ofFields, Object.extend]
  have hitem : (JsonCodec.message.encode item.message).nesting <
      (JsonCodec.selectedMessage.encode item).nesting := by
    refine Json.nesting_lt_of_get? "message" ?_
    simp [Object.ofFields, Object.extend, Object.get?_insert]
  have hresults : (JsonCodec.selectedMessage.encode item).nesting <
      (JsonCodec.selectedMessage.list.encode (progress.selection.branch b).results).nesting :=
    Json.nesting_lt_of_mem (List.mem_map_of_mem h)
  have hbranch : (JsonCodec.selectedMessage.list.encode
        (progress.selection.branch b).results).nesting <
      (JsonCodec.branchSelection.encode (progress.selection.branch b)).nesting := by
    refine Json.nesting_lt_of_get? "results" ?_
    cases (progress.selection.branch b).lastFilterDiagnostic <;>
      simp [Object.ofFields, Object.extend, Object.get?_insert]
  have hbrs : (JsonCodec.branchSelection.encode (progress.selection.branch b)).nesting <
      (JsonCodec.branchSelection.map.encode progress.selection.branches).nesting := by
    obtain ⟨selection, hseln⟩ : ∃ selection, progress.selection.branches[b]? = some selection := by
      cases hseln : progress.selection.branches[b]? with
      | none => simp [SelectionState.branch, hseln] at h
      | some selection => exact ⟨selection, rfl⟩
    have hbranch : progress.selection.branch b = selection := by
      rw [SelectionState.branch, hseln]
      rfl
    rw [hbranch]
    have hmem : (b, selection) ∈ progress.selection.branches.toList :=
      Std.ExtTreeMap.mem_toList_iff_getElem?_eq_some.mpr hseln
    exact Json.nesting_lt_of_mem_entries
      (List.mem_map.mpr ⟨(b, selection), hmem, rfl⟩ :
        (b, JsonCodec.branchSelection.encode selection) ∈ _)
  have hdocument : (JsonCodec.branchSelection.map.encode progress.selection.branches).nesting <
      progress.document.nesting := by
    refine Json.nesting_lt_of_get? "branches" ?_
    simp [Object.ofFields, Object.extend, Object.get?_insert]
  rw [CHECKPOINT_LEVELS]
  omega

/-- **Progress is restored exactly when no message of a window nests too deep.** -/
lemma Restorable.restores_iff [Platform] (law : ReadsJson printed)
    (h : progress.Restorable printed RECURSION_LIMIT) :
    decode progress.encode = .ok progress ↔
      ∀ b, ∀ item ∈ (progress.selection.branch b).results,
        item.message.value.nesting ≤ RECURSION_LIMIT - CHECKPOINT_LEVELS := by
  constructor
  · intro hdecode b item hitem
    by_contra hdeep
    have hnesting : ¬progress.document.nesting ≤ RECURSION_LIMIT := by
      have hle := nesting_message hitem
      rw [RECURSION_LIMIT, CHECKPOINT_LEVELS] at *
      omega
    have hread := law.reads progress.document (h.document law.counts).numbers
    rw [if_neg hnesting] at hread
    unfold decode encode at hdecode
    rw [hread] at hdecode
    cases hdecode
  · intro hshallow
    refine decode_encode law ⟨h.publication, h.observation, fun b item hitem => ?_,
      h.selection.revisions⟩
    have hmsg := h.selection.messages b item hitem
    exact ⟨hmsg.sorted, hmsg.numbers, hshallow b item hitem⟩

end SourceProgress

/-! ### The selector keeps messages readable -/

variable {rev : Nat}

namespace SelectionState

variable {printed : Number → Prop} {room : Nat} {s : SelectionState}

lemma restorable_empty : ({} : SelectionState).Restorable printed room := by
  refine ⟨fun b item hitem => ?_, fun key seen hseen => ?_⟩
  · simp [branch] at hitem
  · simp [seen?] at hseen

namespace Restorable

lemma updateBranch {f : BranchSelection → BranchSelection}
    (h : s.Restorable printed room)
    (hf : ∀ item ∈ (f (s.branch b)).results, item.message.value.Readable printed room) :
    (s.updateBranch b f).Restorable printed room := by
  refine ⟨fun b' item hitem => ?_, h.revisions⟩
  rw [branch_updateBranch] at hitem
  split_ifs at hitem
  · exact hf item hitem
  · exact h.messages b' item hitem

lemma modifyBranch {f : BranchSelection → BranchSelection} (hdefault : f {} = {})
    (h : s.Restorable printed room)
    (hf : ∀ item ∈ (f (s.branch b)).results, item.message.value.Readable printed room) :
    (s.modifyBranch b f).Restorable printed room := by
  refine ⟨fun b' item hitem => ?_, h.revisions⟩
  rw [branch_modifyBranch _ _ _ hdefault] at hitem
  split_ifs at hitem
  · exact hf item hitem
  · exact h.messages b' item hitem

lemma noteDiagnostic (b : BranchId) (diagnostic : Option FilterDiagnostic)
    (h : s.Restorable printed room) : (s.noteDiagnostic b diagnostic).Restorable printed room :=
  h.updateBranch (h.messages b)

lemma markCoverageGap (b : BranchId) (h : s.Restorable printed room) :
    (s.markCoverageGap b).Restorable printed room :=
  h.updateBranch (h.messages b)

lemma markIdentityLimit (b : BranchId) (h : s.Restorable printed room) :
    (s.markIdentityLimit b).Restorable printed room :=
  h.updateBranch (h.messages b)

lemma discardResult (b : BranchId) (identity : String) (h : s.Restorable printed room) :
    (s.discardResult b identity).Restorable printed room :=
  h.modifyBranch rfl fun item hitem => h.messages b item (List.mem_of_mem_filter hitem)

lemma retireWindow (b : BranchId) (h : s.Restorable printed room) :
    (s.retireWindow b).Restorable printed room := by
  have hwindow : (s.modifyBranch b fun selection => { selection with results := [] }).Restorable
      printed room := h.modifyBranch rfl fun item hitem => by cases hitem
  refine ⟨hwindow.messages, fun key seen hseen => ?_⟩
  rw [seen?_retireWindow, Option.mem_def, Option.map_eq_some_iff] at hseen
  obtain ⟨old, hold, rfl⟩ := hseen
  have hrev := h.revisions key old hold
  unfold SeenResult.retire
  split_ifs <;> exact hrev

lemma setMembership (key : ResultKey) (membership : ResultMembership)
    (h : s.Restorable printed room) : (s.setMembership key membership).Restorable printed room := by
  refine ⟨h.messages, fun key' seen hseen => ?_⟩
  rw [seen?_setMembership] at hseen
  split_ifs at hseen
  · obtain ⟨old, hold, rfl⟩ := Option.map_eq_some_iff.mp hseen
    exact h.revisions _ old hold
  · exact h.revisions key' seen hseen

lemma recordSeen (key : ResultKey) (observation : Observation)
    (h : s.Restorable printed room) (hrev : rev < 2 ^ 64) :
    (s.recordSeen key rev observation).Restorable printed room := by
  refine ⟨h.messages, fun key' seen hseen => ?_⟩
  rw [seen?_recordSeen] at hseen
  split_ifs at hseen
  · cases hseen
    exact hrev
  · exact h.revisions key' seen hseen

lemma recordRemoval (key : ResultKey) (h : s.Restorable printed room)
    (hrev : rev < 2 ^ 64) : (s.recordRemoval key rev).Restorable printed room := by
  refine ⟨h.messages, fun key' seen hseen => ?_⟩
  rw [SelectionState.recordRemoval, seen?, Std.ExtTreeMap.lookup_insert] at hseen
  split_ifs at hseen
  · cases hseen
    exact hrev
  · exact h.revisions key' seen hseen

lemma pushResult {size : Nat}
    (h : s.Restorable printed room) (hitem : item.message.value.Readable printed room) :
    (s.pushResult b size item).Restorable printed room := by
  have hretire : ∀ (evicted : List SelectedMessage) {t : SelectionState},
      t.Restorable printed room →
      (evicted.foldl (fun s old => s.setMembership ⟨b, old.message.id⟩ .retired) t).Restorable
        printed room := by
    intro evicted
    induction evicted with
    | nil => exact fun ht => ht
    | cons old rest ih => exact fun ht => ih (ht.setMembership _ _)
  refine hretire _ (h.updateBranch fun other hother => ?_)
  rcases List.mem_append.mp (List.mem_of_mem_drop hother) with hother | hother
  · exact h.messages b other hother
  · rw [List.mem_singleton.mp hother]
    exact hitem

lemma replaceResult {identity : String} {observation : Observation}
    {message : Message} (h : s.Restorable printed room)
    (hmsg : message.value.Readable printed room) :
    (s.replaceResult b identity observation message).Restorable printed room := by
  refine h.modifyBranch rfl fun item hitem => ?_
  have hreplace : ∀ (replace : SelectedMessage → Option SelectedMessage),
      (∀ old new, replace old = some new → new.message.value.Readable printed room) →
      ∀ items : List SelectedMessage,
        (∀ old ∈ items, old.message.value.Readable printed room) →
        ∀ new ∈ items.replaceF replace, new.message.value.Readable printed room := by
    intro replace hnew items hitems
    induction items with
    | nil => exact fun new hmem => by cases hmem
    | cons old rest ih =>
      intro new hmem
      rw [List.replaceF_cons] at hmem
      cases hold : replace old with
      | none =>
        rw [hold] at hmem
        rcases List.mem_cons.mp hmem with rfl | hmem
        · exact hitems _ List.mem_cons_self
        · exact ih (fun other hother => hitems other (List.mem_cons_of_mem _ hother)) new hmem
      | some replaced =>
        rw [hold] at hmem
        rcases List.mem_cons.mp hmem with rfl | hmem
        · exact hnew old _ hold
        · exact hitems new (List.mem_cons_of_mem _ hmem)
  refine hreplace _ (fun old new hnew => ?_) _ (h.messages b) item hitem
  split_ifs at hnew
  cases hnew
  exact hmsg

lemma removeResult (b : BranchId) (identity : String)
    (h : s.Restorable printed room) (hrev : rev < 2 ^ 64) :
    (s.removeResult b identity rev).2.Restorable printed room := by
  unfold SelectionState.removeResult
  dsimp only
  split_ifs
  · exact h
  · exact (h.markIdentityLimit b).discardResult b identity
  · exact (h.recordRemoval _ hrev).discardResult b identity

/-! ### One observation -/

section Apply

variable [Platform] {ε : Type} {act : EffectiveActivation} {observation : Observation}
  {capture : Capture ε} {outcome : SelectionOutcome} {t : SelectionState}

omit [Platform] in
lemma selectMessage {message : Message} (h : s.Restorable printed room)
    (hmsg : message.value.Readable printed room) :
    (s.selectMessage act observation message).Restorable printed room :=
  (h.noteDiagnostic _ _).pushResult hmsg

lemma apply (h : s.Restorable printed room)
    (hobs : ∀ message ∈ observation.kind.message?, message.value.Readable printed room)
    (happly : ApplyCase s act observation capture outcome t) :
    t.Restorable printed room := by
  cases happly with
  | rejected _ _ hstate =>
    rcases hstate with rfl | ⟨diagnostic, rfl⟩
    · exact h
    · exact h.noteDiagnostic _ _
  | event _ _ _ => exact h.noteDiagnostic _ _
  | collected hkind | window hkind _ => exact h.selectMessage (hobs _ hkind)

omit [Platform] in
lemma correct {key : ResultKey} {prev : SeenResult} (h : s.Restorable printed room)
    (hobs : ∀ message ∈ observation.kind.message?, message.value.Readable printed room)
    (hcorr : CorrectionCase s key prev observation outcome t) :
    t.Restorable printed room := by
  cases hcorr with
  | settled _ => exact h
  | excluded _ => exact ((h.noteDiagnostic _ _).discardResult _ _).setMembership _ _
  | unknown _ => exact ((h.noteDiagnostic _ _).setMembership _ _).markCoverageGap _
  | invalidated =>
    exact (((h.noteDiagnostic _ _).retireWindow _).markCoverageGap _).setMembership _ _
  | replaced hkind _ =>
    exact ((h.noteDiagnostic _ _).replaceResult (hobs _ hkind)).setMembership _ _

lemma applyPublished {identity : String} {admission : Admission}
    (h : s.Restorable printed room) (hrev : rev < 2 ^ 64)
    (hobs : ∀ message ∈ observation.kind.message?, message.value.Readable printed room)
    (happly : PublishedCase s act identity rev observation capture admission outcome t) :
    t.Restorable printed room := by
  have hseen := h.recordSeen ⟨observation.branch, identity⟩ observation hrev
  cases happly with
  | refused => exact h
  | limit _ _ => exact h.markIdentityLimit _
  | historical _ _ => exact (hseen.discardResult _ _).setMembership _ _
  | pending _ _ => exact hseen
  | first _ _ _ happly => exact (hseen.apply hobs happly).setMembership _ _
  | repeated _ _ _ => exact hseen.setMembership _ _
  | correction _ _ hcorr => exact hseen.correct hobs hcorr

end Apply

end Restorable

end SelectionState

/-! ### Pages -/

def SourceEvent.message? : SourceEvent → Option Message
  | .observation _ _ _ _ draft => draft.kind.message?
  | _ => none

def SourceEvent.revision? : SourceEvent → Option Nat
  | .observation _ _ _ revision _ | .removal _ _ revision _ => some revision
  | _ => none

/-- What holds of every page that the source delivers: its integers are machine integers,
and its messages were read from JSON. -/
structure SourceBatch.Received (printed : Number → Prop) (page : SourceBatch) : Prop where
  next : page.next < 2 ^ 64
  revisions : ∀ event ∈ page.events, ∀ revision ∈ event.revision?, revision < 2 ^ 64
  messages : ∀ event ∈ page.events, ∀ message ∈ event.message?,
    message.value.Readable printed RECURSION_LIMIT

/-- A page whose messages leave room for the levels of a checkpoint. -/
def SourceBatch.Shallow (page : SourceBatch) : Prop :=
  ∀ event ∈ page.events, ∀ message ∈ event.message?,
    message.value.nesting ≤ RECURSION_LIMIT - CHECKPOINT_LEVELS

namespace SourceProgress.Restorable

variable {printed : Number → Prop} {room : Nat}

lemma select {st : PageState} {selection : SelectionState} (h : st.next.Restorable printed room)
    (hseln : selection.Restorable printed room) :
    (st.select selection).next.Restorable printed room :=
  ⟨h.publication, h.observation, hseln⟩

lemma noteOutcome {st : PageState} (pageIndex : Nat) (identity : String)
    (observation : Observation) (outcome : SelectionOutcome) (h : st.next.Restorable printed room) :
    (st.noteOutcome pageIndex identity observation outcome).next.Restorable printed room := by
  cases outcome <;> exact h

variable [Platform] {act : EffectiveActivation} {capture : PageCapture}

section

variable {pageIndex : Nat} {st st' : PageState}

lemma applyObservation {cursor : PublicationCursor}
    {version : Option EvidenceVersion} {identity : String}
    {draft : ObservationDraft} (h : st.next.Restorable printed room)
    (hrev : rev < 2 ^ 64)
    (hmsg : ∀ message ∈ draft.kind.message?, message.value.Readable printed room)
    (happly : Antiburn.applyObservation act capture pageIndex st cursor version identity
      rev draft = .ok st') : st'.next.Restorable printed room := by
  unfold Antiburn.applyObservation at happly
  split_ifs at happly with hexh
  dsimp only at happly
  have hpos : st.next.observationPosition + 1 < 2 ^ 64 := by
    have hbound : U64_MAX + 1 = 2 ^ 64 := rfl
    rw [← hbound]
    exact Nat.add_lt_add_right (not_le.mp hexh) 1
  split at happly
  · cases happly
  · cases happly
  · rename_i outcome selection hpub
    cases happly
    have hnext : selection.Restorable printed room :=
      h.selection.applyPublished hrev hmsg (SelectionState.applyPublished_cases hpub)
    show (PageState.noteOutcome _ pageIndex identity _ outcome).next.Restorable printed room
    exact noteOutcome pageIndex identity _ outcome ⟨h.publication, hpos, hnext⟩

lemma applyPageEvent {event event' : SourceEvent}
    (h : st.next.Restorable printed room)
    (hrev : ∀ rev ∈ event.revision?, rev < 2 ^ 64)
    (hmsg : ∀ message ∈ event.message?, message.value.Readable printed room)
    (happly : Antiburn.applyPageEvent act capture pageIndex st event = .ok (event', st')) :
    st'.next.Restorable printed room := by
  cases event with
  | ignored cursor =>
    cases happly
    exact h
  | observation cursor version identity rev draft =>
    unfold Antiburn.applyPageEvent at happly
    dsimp only at happly
    by_cases haccept : st.next.selection.acceptsUpdate ⟨draft.branch, identity⟩ rev
        draft.version
    · rw [if_pos haccept] at happly
      obtain ⟨applied, happl, hdone⟩ := Except.of_bind_ok happly
      cases hdone
      exact h.applyObservation (hrev rev rfl) hmsg happl
    · rw [if_neg haccept] at happly
      cases version with
      | none =>
        cases happly
        exact h
      | some version =>
        dsimp only at happly
        split_ifs at happly
        · cases happly
          exact h
        · cases happly
          exact h
  | removal cursor identity rev b =>
    have hrem := h.selection.removeResult b identity (hrev rev rfl)
    unfold Antiburn.applyPageEvent at happly
    dsimp only at happly
    split_ifs at happly
    · cases happly
      exact h.select hrem
    · cases happly
      exact h.select hrem
  | gap cursor b reason =>
    cases happly
    exact h.select (h.selection.markCoverageGap b)
  | unsafeUpdate cursor b reason | segmentReset cursor b reason =>
    cases happly
    exact h.select ((h.selection.retireWindow b).markCoverageGap b)
  | coverageRestored cursor b =>
    cases happly
    exact h.select ((h.selection.retireWindow b).updateBranch
      ((h.selection.retireWindow b).messages b))

lemma applyPageEvents {events events' : List SourceEvent}
    (h : st.next.Restorable printed room)
    (hrevs : ∀ event ∈ events, ∀ rev ∈ event.revision?, rev < 2 ^ 64)
    (hmsgs : ∀ event ∈ events, ∀ message ∈ event.message?,
      message.value.Readable printed room)
    (happly : Antiburn.applyPageEvents act capture pageIndex st events =
      .ok (events', st')) : st'.next.Restorable printed room := by
  induction events generalizing pageIndex st events' with
  | nil =>
    cases happly
    exact h
  | cons event rest ih =>
    obtain ⟨⟨first, middle⟩, hfirst, hrest⟩ := Except.of_bind_ok happly
    obtain ⟨⟨others, last⟩, hothers, hdone⟩ := Except.of_bind_ok hrest
    cases hdone
    have hmiddle := h.applyPageEvent (hrevs event List.mem_cons_self)
      (hmsgs event List.mem_cons_self) hfirst
    exact ih hmiddle (fun other hother => hrevs other (List.mem_cons_of_mem _ hother))
      (fun other hother => hmsgs other (List.mem_cons_of_mem _ hother)) hothers

end

lemma preparePage {progress : SourceProgress} {page : SourceBatch} {prepared : PreparedPage}
    (h : progress.Restorable printed room) (hnext : page.next < 2 ^ 64)
    (hrevs : ∀ event ∈ page.events, ∀ rev ∈ event.revision?, rev < 2 ^ 64)
    (hmsgs : ∀ event ∈ page.events, ∀ message ∈ event.message?,
      message.value.Readable printed room)
    (hprep : Antiburn.preparePage act capture progress page = .ok prepared) :
    prepared.commit.next.Restorable printed room := by
  unfold Antiburn.preparePage at hprep
  split at hprep
  · cases hprep
  · obtain ⟨⟨events, st⟩, hevents, hdone⟩ := Except.of_bind_ok hprep
    cases hdone
    have hst : st.next.Restorable printed room :=
      @applyPageEvents _ _ _ _ _ _ { next := progress } _ _ _ h hrevs hmsgs hevents
    exact ⟨hnext, hst.observation, hst.selection⟩

lemma cleanRun {progress last : SourceProgress} {pages : List SourceBatch}
    {commits : List PageCommit} (h : progress.Restorable printed room)
    (hnext : ∀ page ∈ pages, page.next < 2 ^ 64)
    (hrevs : ∀ page ∈ pages, ∀ event ∈ page.events, ∀ rev ∈ event.revision?,
      rev < 2 ^ 64)
    (hmsgs : ∀ page ∈ pages, ∀ event ∈ page.events, ∀ message ∈ event.message?,
      message.value.Readable printed room)
    (hrun : Antiburn.cleanRun act capture progress pages = .ok (commits, last)) :
    last.Restorable printed room := by
  induction pages generalizing progress commits with
  | nil =>
    cases hrun
    exact h
  | cons page rest ih =>
    obtain ⟨prepared, hprep, hrest⟩ := Except.of_bind_ok hrun
    obtain ⟨⟨others, final⟩, hothers, hdone⟩ := Except.of_bind_ok hrest
    cases hdone
    have hpage := h.preparePage (hnext page List.mem_cons_self)
      (hrevs page List.mem_cons_self) (hmsgs page List.mem_cons_self) hprep
    exact ih hpage (fun other hother => hnext other (List.mem_cons_of_mem _ hother))
      (fun other hother => hrevs other (List.mem_cons_of_mem _ hother))
      (fun other hother => hmsgs other (List.mem_cons_of_mem _ hother)) hothers

end SourceProgress.Restorable

section Run

variable [Platform] {printed : Number → Prop}

/-- **In every run over pages with shallow messages the checkpoint restores the progress.**
The token of the next compare-and-swap is then the one that was stored. -/
theorem checkpoint_restores_shallow_runs (law : ReadsJson printed)
    (act : EffectiveActivation) (capture : PageCapture) {start last : SourceProgress}
    (hstart : start.selection = {}) (hpublication : start.publicationCursor < 2 ^ 64)
    (hobservation : start.observationPosition < 2 ^ 64) {pages : List SourceBatch}
    (hreceived : ∀ page ∈ pages, page.Received printed) (hshallow : ∀ page ∈ pages, page.Shallow)
    {commits : List PageCommit}
    (hrun : cleanRun act capture start pages = .ok (commits, last)) :
    SourceProgress.decode last.encode = .ok last ∧
      ∀ restored, SourceProgress.decode last.encode = .ok restored → restored.head = last.head := by
  have hinitial : start.Restorable printed (RECURSION_LIMIT - CHECKPOINT_LEVELS) :=
    ⟨hpublication, hobservation, hstart ▸ SelectionState.restorable_empty⟩
  have hlast := hinitial.cleanRun (fun page hpage => (hreceived page hpage).next)
    (fun page hpage => (hreceived page hpage).revisions)
    (fun page hpage event hevent message hmessage =>
      have hread := (hreceived page hpage).messages event hevent message hmessage
      ⟨hread.sorted, hread.numbers, hshallow page hpage event hevent message hmessage⟩) hrun
  have hrestored := hlast.decode_encode law
  refine ⟨hrestored, fun restored h => ?_⟩
  rw [hrestored] at h
  cases h
  rfl

end Run

/-- Arrays within each other, around nothing. -/
def nestedArray : Nat → Json
  | 0 => .array []
  | n + 1 => .array [nestedArray n]

/-- A tool result whose arguments are `depth + 1` arrays. -/
def nestedMessage (depth : Nat) : Message :=
  ⟨"a", .object [("tool", .object [("arguments", nestedArray depth)])]⟩

/-- One such result. -/
def nestedPage (depth : Nat) : SourceBatch where
  events :=
    [.observation 1 none "a" 1
      (mainObservation (.toolResult (nestedMessage depth) "other" "completed") 1).toObservationDraft]
  next := 1
  hasMore := false

def toolResultActivation : EffectiveActivation :=
  let act := userMessageActivation 1 Nat.one_pos one_le_MAX_WINDOW_SIZE
  { act with
    compiled :=
      { act.compiled with
        trigger := { act.compiled.trigger with family := .messages true none none none } } }

def nestedRun (depth : Nat) : Except PageFault (List PageCommit × SourceProgress) :=
  letI := compactPlatform
  cleanRun toolResultActivation (fun _ _ => .ok none) {} [nestedPage depth]

variable {printed : Number → Prop}

lemma nestedArray_readable (n : Nat) :
    (nestedArray n).Readable printed (n + 1) := by
  induction n with
  | zero => exact Json.Readable.array fun item hitem => by cases hitem
  | succ n ih =>
    refine Json.Readable.array fun item hitem => ?_
    rw [List.mem_singleton.mp hitem]
    exact ih

lemma nestedMessage_readable (depth : Nat) :
    (nestedMessage depth).value.Readable printed (depth + 3) := by
  refine Json.Readable.object (List.pairwise_singleton _ _) fun entry hentry => ?_
  rw [List.mem_singleton.mp hentry]
  refine Json.Readable.object (List.pairwise_singleton _ _) fun entry hentry => ?_
  rw [List.mem_singleton.mp hentry]
  exact nestedArray_readable depth

lemma nestedPage_received {depth : Nat}
    (h : depth + 3 ≤ RECURSION_LIMIT) : (nestedPage depth).Received printed := by
  have hnext : (1 : Nat) < 2 ^ 64 := by decide
  refine ⟨hnext, fun event hevent rev hrev => ?_,
    fun event hevent message hmsg => ?_⟩
  · rw [List.mem_singleton.mp hevent] at hrev
    cases hrev
    exact hnext
  · rw [List.mem_singleton.mp hevent] at hmsg
    cases hmsg
    exact (nestedMessage_readable depth).mono h

/-- A message of 122 levels, which the reader accepts, makes a checkpoint that it refuses. -/
theorem deep_message_does_not_restore :
    letI := compactPlatform
    ReadsJson PlainNumber ∧ (nestedPage 119).Received PlainNumber ∧
      ∃ commits last, nestedRun 119 = .ok (commits, last) ∧
        SourceProgress.decode last.encode ≠ .ok last := by
  let platform := compactPlatform
  have hreceived : (nestedPage 119).Received PlainNumber := nestedPage_received (by decide)
  refine ⟨compactPlatform_readsJson, hreceived, ?_⟩
  have hwindow : (match nestedRun 119 with
      | .ok (_, last) =>
        (last.selection.branch "main").results.any fun item => item.message.value.nesting == 122
      | .error _ => false) = true := by decide +kernel
  cases hrun : nestedRun 119 with
  | error fault =>
    rw [hrun] at hwindow
    cases hwindow
  | ok result =>
    obtain ⟨commits, last⟩ := result
    refine ⟨commits, last, rfl, fun hdecode => ?_⟩
    rw [hrun] at hwindow
    obtain ⟨item, hitem, hnesting⟩ := List.any_eq_true.mp hwindow
    have hinitial : SourceProgress.Restorable PlainNumber RECURSION_LIMIT {} :=
      ⟨by decide, by decide, SelectionState.restorable_empty⟩
    have hlast : last.Restorable PlainNumber RECURSION_LIMIT := by
      refine hinitial.cleanRun (fun page hpage => ?_) (fun page hpage => ?_) (fun page hpage => ?_)
        hrun
      · exact List.mem_singleton.mp hpage ▸ hreceived.next
      · exact List.mem_singleton.mp hpage ▸ hreceived.revisions
      · exact List.mem_singleton.mp hpage ▸ hreceived.messages
    have hshallow := (hlast.restores_iff compactPlatform_readsJson).mp hdecode "main" item hitem
    rw [beq_iff_eq.mp hnesting] at hshallow
    exact absurd hshallow (by decide)

theorem checkpoint_restores_shallow_message :
    letI := compactPlatform
    ∃ commits last, nestedRun 118 = .ok (commits, last) ∧
      SourceProgress.decode last.encode = .ok last := by
  let platform := compactPlatform
  have hok : (nestedRun 118).isOk = true := by decide
  obtain ⟨⟨commits, last⟩, hrun⟩ := Except.isOk_iff.mp hok
  refine ⟨commits, last, hrun, ?_⟩
  refine (checkpoint_restores_shallow_runs compactPlatform_readsJson toolResultActivation
    (fun _ _ => .ok none) rfl (by decide) (by decide) (fun page hpage => ?_) (fun page hpage => ?_)
    hrun).1
  · rw [List.mem_singleton.mp hpage]
    exact nestedPage_received (by decide)
  · rw [List.mem_singleton.mp hpage]
    intro event hevent message hmessage
    rw [List.mem_singleton.mp hevent] at hmessage
    cases hmessage
    have hreadable : (nestedMessage 118).value.Readable PlainNumber 121 :=
      nestedMessage_readable 118
    exact hreadable.nesting

end Antiburn
