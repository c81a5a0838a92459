/-
Record indexes of live pages and of full passes.

Both framers cut a file at its newlines and skip blank lines, but they differ in
what a blank line is: a page skips ASCII whitespace, a full pass skips whatever
Unicode calls white space.  The indexes agree exactly on files without a line
that only the second rule calls blank (`framersAgree_iff`).
-/
import Antiburn.FullFraming

namespace Antiburn

/-! ### What a page gives its adapter -/

/-- What the callback of `read_page` has done: the index of the next record, the
records given to the adapter, and all that the framer delivered. -/
structure PageRecords where
  nextRecordIndex : Nat := 0
  given : List (Nat × Option (List UInt8)) := []
  delivered : List FramedLine := []

/-- A delivered line: a blank one takes no index. -/
def observeRecord (start stop : Nat) (content : Option (List UInt8)) (state : PageRecords) :
    PageRecords :=
  let state := { state with delivered := state.delivered ++ [⟨start, stop, content⟩] }
  if content.any (·.all isAsciiWhitespaceByte) then state
  else
    { state with
      nextRecordIndex := saturatingAdd state.nextRecordIndex 1
      given := state.given ++ [(state.nextRecordIndex, content)] }

/-- A record without its trailing carriage return. -/
def strippedEntry (entry : Nat × Option (List UInt8)) : Nat × Option (List UInt8) :=
  (entry.1, entry.2.map stripCarriageReturn)

def liveRecords : (index : Nat) → List (List UInt8) → List (Nat × Option (List UInt8))
  | _, [] => []
  | index, line :: rest =>
    if (recordContent line).any (·.all isAsciiWhitespaceByte) then liveRecords index rest
    else (index, recordContent line) :: liveRecords (saturatingAdd index 1) rest

lemma framedFrom_content (offset : Nat) (lines : List (List UInt8)) :
    (framedFrom offset lines).map FramedLine.content = lines.map recordContent := by
  induction lines generalizing offset with
  | nil => rfl
  | cons line rest ih => exact congrArg (List.cons _) (ih _)

lemma observeLines_observeRecord (state : PageRecords) (framed : List FramedLine)
    (lines : List (List UInt8)) (h : framed.map FramedLine.content = lines.map recordContent) :
    (observeLines observeRecord state framed).delivered = state.delivered ++ framed ∧
      (observeLines observeRecord state framed).given =
        state.given ++ liveRecords state.nextRecordIndex lines := by
  induction framed generalizing state lines with
  | nil =>
    rw [List.map_nil, eq_comm, List.map_eq_nil_iff] at h
    subst h
    exact ⟨(List.append_nil _).symm, (List.append_nil _).symm⟩
  | cons framed rest ih =>
    cases lines with
    | nil => cases h
    | cons line lines =>
      injection h with hcont hrest
      show (observeLines observeRecord (observeRecord _ _ _ _) rest).delivered = _ ∧
        (observeLines observeRecord (observeRecord _ _ _ _) rest).given = _
      obtain ⟨hdeliv, hgiven⟩ := ih (observeRecord framed.start framed.stop framed.content state)
        lines hrest
      rw [hdeliv, hgiven]
      unfold observeRecord
      rw [liveRecords, hcont]
      split_ifs
      · exact ⟨by simp [← hcont], rfl⟩
      · exact ⟨by simp [← hcont], by simp⟩

/-! ### Blank lines -/

def UnicodeBlank (line : List UInt8) : Prop :=
  line.length ≤ MAX_RECORD_BYTES ∧ isWhitespaceOnly (stripCarriageReturn line) = true ∧
    line.all isAsciiWhitespaceByte = false

lemma isWhitespaceOnly_encode (c : Char) (rest : List UInt8) (hc : isWhiteSpace c = true) :
    isWhitespaceOnly ([c].utf8Encode.data.toList ++ rest) = isWhitespaceOnly rest := by
  have hbytes : ByteArray.mk ([c].utf8Encode.data.toList ++ rest).toArray =
      [c].utf8Encode ++ ByteArray.mk rest.toArray := by
    apply ByteArray.ext
    simp
  unfold isWhitespaceOnly
  rw [hbytes, ByteArray.utf8Decode?_utf8Encode_singleton_append]
  cases (ByteArray.mk rest.toArray).utf8Decode? with
  | none => rfl
  | some chars => simp [hc]

section

variable (line : List UInt8) (h : line.all isAsciiWhitespaceByte = true)
include line h

lemma isWhitespaceOnly_of_ascii : isWhitespaceOnly line = true := by
  induction line with
  | nil =>
    unfold isWhitespaceOnly
    rw [show ByteArray.mk ([] : List UInt8).toArray = ByteArray.empty from rfl,
      ByteArray.utf8Decode?_empty]
    rfl
  | cons byte rest ih =>
    rw [List.all_cons, Bool.and_eq_true] at h
    have hbyte : ∃ c : Char, isWhiteSpace c = true ∧ [c].utf8Encode.data.toList = [byte] := by
      have hcases := h.1
      unfold isAsciiWhitespaceByte at hcases
      simp only [Bool.or_eq_true, beq_iff_eq] at hcases
      rcases hcases with (((rfl | rfl) | rfl) | rfl) | rfl
      · exact ⟨' ', by decide, by decide⟩
      · exact ⟨'\t', by decide, by decide⟩
      · exact ⟨'\n', by decide, by decide⟩
      · exact ⟨'\x0c', by decide, by decide⟩
      · exact ⟨'\r', by decide, by decide⟩
    obtain ⟨c, hc, hencode⟩ := hbyte
    have hstep := isWhitespaceOnly_encode c rest hc
    rw [hencode] at hstep
    exact hstep.trans (ih h.2)

lemma isWhitespaceOnly_strip :
    isWhitespaceOnly (stripCarriageReturn line) = true := by
  apply isWhitespaceOnly_of_ascii
  unfold stripCarriageReturn
  split_ifs
  · rw [List.all_eq_true] at h ⊢
    exact fun byte hbyte => h byte (List.dropLast_subset _ hbyte)
  · exact h

end

/-! ### Comparing the records -/

lemma length_fullRecords_le (index index' : Nat) (lines : List (List UInt8)) :
    (BoundedJsonlReader.fullRecords MAX_RECORD_BYTES index lines).length ≤
      (liveRecords index' lines).length := by
  induction lines generalizing index index' with
  | nil => exact Nat.le_refl _
  | cons line rest ih =>
    rw [BoundedJsonlReader.fullRecords, liveRecords, recordContent]
    by_cases hsize : MAX_RECORD_BYTES < line.length
    · rw [if_pos hsize, if_neg (Nat.not_le.mpr hsize)]
      exact Nat.succ_le_succ (ih _ _)
    · rw [if_neg hsize, if_pos (Nat.not_lt.mp hsize), Option.any_some]
      by_cases hblank : line.all isAsciiWhitespaceByte = true
      · rw [if_pos (isWhitespaceOnly_strip line hblank), if_pos hblank]
        exact ih _ _
      · rw [if_neg hblank]
        split_ifs
        · exact Nat.le_succ_of_le (ih _ _)
        · exact Nat.succ_le_succ (ih _ _)

/-- **The records agree exactly where the two rules for blank lines do.** -/
lemma records_agree_iff (index : Nat) (lines : List (List UInt8)) :
    BoundedJsonlReader.fullRecords MAX_RECORD_BYTES index lines =
        (liveRecords index lines).map strippedEntry ↔
      ∀ line ∈ lines, ¬ UnicodeBlank line := by
  induction lines generalizing index with
  | nil => exact ⟨fun _ line h => absurd h List.not_mem_nil, fun _ => rfl⟩
  | cons line rest ih =>
    rw [List.forall_mem_cons, BoundedJsonlReader.fullRecords, liveRecords]
    by_cases hsize : MAX_RECORD_BYTES < line.length
    · have hcont : recordContent line = none := if_neg (Nat.not_le.mpr hsize)
      have hline : ¬ UnicodeBlank line := fun h => absurd h.1 (Nat.not_le.mpr hsize)
      rw [if_pos hsize, hcont, ← ih (saturatingAdd index 1)]
      simp [strippedEntry, hline]
    · have hcont : recordContent line = some line := if_pos (Nat.not_lt.mp hsize)
      rw [if_neg hsize, hcont]
      by_cases hascii : line.all isAsciiWhitespaceByte = true
      · have hline : ¬ UnicodeBlank line := fun h => by simp [h.2.2] at hascii
        rw [if_pos (isWhitespaceOnly_strip line hascii), ← ih index]
        simp [hascii, hline]
      · have hascii : line.all isAsciiWhitespaceByte = false := by simpa using hascii
        rw [Option.any_some, hascii, if_neg Bool.false_ne_true]
        by_cases hblank : isWhitespaceOnly (stripCarriageReturn line) = true
        · -- the page gives one record more
          have hline : UnicodeBlank line := ⟨Nat.not_lt.mp hsize, hblank, hascii⟩
          rw [if_pos hblank]
          refine ⟨fun h => ?_, fun h => absurd hline h.1⟩
          have hlen := congrArg List.length h
          rw [List.length_map, List.length_cons] at hlen
          have hle := length_fullRecords_le index (saturatingAdd index 1) rest
          omega
        · have hline : ¬ UnicodeBlank line := fun h => hblank h.2.1
          rw [if_neg hblank, ← ih (saturatingAdd index 1)]
          simp [strippedEntry, hline]

/-! ### Runs of pages against a full pass -/

/-- Every record of a full pass over slices of a source that nobody cancels: a
round for every byte, and a call for every line. -/
def passOver (κ : Type) (chunks : List (List UInt8)) : List (FramedRecord κ) :=
  BoundedJsonlReader.fullPass (chunks.flatten.length + 1) (chunks.flatten.length + 1)
    { source := chunks.map .ok }

def pagesCursor (codec : FramerCodec) (start : Nat) (discard : Bool) (stream : List UInt8)
    (pages : List (FramePage PageRecords)) : FrameCursor PageRecords :=
  pages.foldl (readFramePage codec observeRecord start stream) (.startAt {} start discard)

def pagesLines (codec : FramerCodec) (start : Nat) (discard : Bool) (stream : List UInt8)
    (pages : List (FramePage PageRecords)) : List (List UInt8) :=
  let bytes := stream.take ((pagesCursor codec start discard stream pages).offset - start)
  (Lines.complete NEWLINE bytes).drop (if discard then 1 else 0)

/-- The pages delivered exactly the complete lines at their offsets, the framer is
valid where they stopped, and every full pass over the same newline-terminated
bytes gives the records that the pages gave. -/
structure FramersAgree (codec : FramerCodec) (start : Nat) (discard : Bool) (stream : List UInt8)
    (pages : List (FramePage PageRecords)) : Prop where
  delivered : (pagesCursor codec start discard stream pages).state.delivered =
    framedLines start discard
      (stream.take ((pagesCursor codec start discard stream pages).offset - start))
  valid : (pagesCursor codec start discard stream pages).framer.validAt
    (pagesCursor codec start discard stream pages).offset = true
  records : ∀ (κ : Type) (chunks : List (List UInt8)), (∀ chunk ∈ chunks, chunk ≠ []) →
    chunks.flatten = Lines.join NEWLINE (pagesLines codec start discard stream pages) →
      (passOver κ chunks).map FramedRecord.entry =
        (pagesCursor codec start discard stream pages).state.given.map strippedEntry

section Agreement

variable (codec : FramerCodec) (start : Nat) (discard : Bool) (stream : List UInt8)
  (pages : List (FramePage PageRecords))

lemma length_le_join (lines : List (List UInt8)) :
    lines.length ≤ (Lines.join NEWLINE lines).length := by
  induction lines with
  | nil => exact Nat.zero_le _
  | cons line rest ih =>
    rw [Lines.join_cons, List.length_append, List.length_cons, List.length_cons]
    omega

lemma passOver_join (κ : Type) {chunks lines : List (List UInt8)}
    (hlines : ∀ line ∈ lines, NEWLINE ∉ line) (hne : ∀ chunk ∈ chunks, chunk ≠ [])
    (hchunks : chunks.flatten = Lines.join NEWLINE lines) :
    (passOver κ chunks).map FramedRecord.entry =
      BoundedJsonlReader.fullRecords MAX_RECORD_BYTES 0 lines := by
  unfold passOver
  rw [hchunks]
  exact BoundedJsonlReader.fullPass_join lines hlines ⟨rfl, hne, rfl, rfl⟩ hchunks
    (Nat.lt_succ_self _) (Nat.lt_succ_of_le (length_le_join lines))

lemma exists_chunks (bytes : List UInt8) :
    ∃ chunks : List (List UInt8), (∀ chunk ∈ chunks, chunk ≠ []) ∧ chunks.flatten = bytes := by
  cases bytes with
  | nil => exact ⟨[], by simp, rfl⟩
  | cons byte rest => exact ⟨[byte :: rest], by simp, by simp⟩

lemma pagesCursor_spec :
    let cursor := pagesCursor codec start discard stream pages
    let lines := pagesLines codec start discard stream pages
    cursor.state.delivered = framedLines start discard (stream.take (cursor.offset - start)) ∧
      cursor.framer.validAt cursor.offset = true ∧
      cursor.state.given = liveRecords 0 lines ∧ ∀ line ∈ lines, NEWLINE ∉ line := by
  obtain ⟨bytes, hpre, hframer, hoffset, hstate⟩ :=
    readPages_behind codec observeRecord {} start discard stream pages
  have hread : stream.take ((pagesCursor codec start discard stream pages).offset - start) =
      bytes := by
    unfold pagesCursor
    rw [hoffset, Nat.add_sub_cancel_left]
    exact (List.prefix_iff_eq_take.mp hpre).symm
  have hcont : (framedLines start discard bytes).map FramedLine.content =
      ((Lines.complete NEWLINE bytes).drop (if discard then 1 else 0)).map recordContent := by
    unfold framedLines
    rw [List.map_drop, framedFrom_content, List.map_drop]
  obtain ⟨hdeliv, hgiven⟩ := observeLines_observeRecord {} _ _ hcont
  rw [← hstate] at hdeliv hgiven
  refine ⟨?_, ?_, ?_, ?_⟩
  · rw [hread]
    exact hdeliv
  · unfold pagesCursor
    rw [hframer, hoffset]
    exact validAt_framerAfter
  · unfold pagesLines
    rw [hread]
    exact hgiven
  · unfold pagesLines
    rw [hread]
    exact fun line hline => (Lines.sep_notMem bytes).2 line (List.mem_of_mem_drop hline)

lemma framersAgree_iff_records :
    FramersAgree codec start discard stream pages ↔
      BoundedJsonlReader.fullRecords MAX_RECORD_BYTES 0
          (pagesLines codec start discard stream pages) =
        (liveRecords 0 (pagesLines codec start discard stream pages)).map strippedEntry := by
  obtain ⟨hdeliv, hvalid, hgiven, hlines⟩ := pagesCursor_spec codec start discard stream pages
  constructor
  · rintro ⟨-, -, hrecords⟩
    obtain ⟨chunks, hne, hchunks⟩ :=
      exists_chunks (Lines.join NEWLINE (pagesLines codec start discard stream pages))
    have h := hrecords Empty chunks hne hchunks
    rwa [passOver_join Empty hlines hne hchunks, hgiven] at h
  · intro h
    refine ⟨hdeliv, hvalid, fun κ chunks hne hchunks => ?_⟩
    rw [passOver_join κ hlines hne hchunks, hgiven]
    exact h

/-- **The two framers agree on a run of pages exactly when no line read is blank
to a full pass alone.** -/
theorem framersAgree_iff :
    FramersAgree codec start discard stream pages ↔
      ∀ line ∈ pagesLines codec start discard stream pages, ¬ UnicodeBlank line :=
  (framersAgree_iff_records codec start discard stream pages).trans (records_agree_iff 0 _)

end Agreement

def unaryFramerCodec : FramerCodec where
  encode framer :=
    List.replicate framer.recordStart 1 ++
      (0 :: (if framer.oversized then 1 else 0) :: (if framer.discardPrefix then 1 else 0) ::
        framer.pending)
  decode bytes :=
    match bytes.dropWhile (· == 1) with
    | _ :: oversized :: discardPrefix :: pending =>
      some ⟨pending, oversized == 1, discardPrefix == 1, (bytes.takeWhile (· == 1)).length⟩
    | _ => none
  decode_encode framer := by
    obtain ⟨pending, oversized, discardPrefix, recordStart⟩ := framer
    have hones : ∀ byte ∈ List.replicate recordStart (1 : UInt8), (byte == 1) = true := by
      intro byte h
      rw [List.eq_of_mem_replicate h]
      rfl
    rw [List.dropWhile_append_of_pos hones, List.takeWhile_append_of_pos hones]
    cases oversized <;> cases discardPrefix <;> simp

def noBreakSpaceFile : List UInt8 := [0xc2, 0xa0, 0x0a, 0x7b, 0x7d, 0x0a]

def wholePage : FramePage PageRecords := ⟨6, fun _ => true, true⟩

/-- A no-break space line shifts the index of the record behind it. -/
theorem framers_disagree_noBreakSpace :
    ¬ FramersAgree unaryFramerCodec 0 false noBreakSpaceFile [wholePage] := by
  rw [framersAgree_iff_records, records_agree_iff]
  intro h
  refine h [0xc2, 0xa0] ?_ ⟨by decide, ?_, by decide⟩
  · decide
  · exact isWhitespaceOnly_encode '\u00a0' [] (by decide)

end Antiburn
