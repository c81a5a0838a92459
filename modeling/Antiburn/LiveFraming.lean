/-
Persistent framing for finite reads of a growing JSONL file.

A page of the file is pushed through the framer, which hands each complete record
to a callback.  The callback may stop the page behind a record; the next page
starts where the last one stopped, with the framer as it was or as it was saved.
Whatever the pages are, the records are the complete lines of the bytes read
(`readPages_spec`).
-/
import Antiburn.Lib.Lines

namespace Antiburn

/-! ### The framer -/

def MAX_RECORD_BYTES : Nat := 8 * 1024 * 1024

/-- The byte that ends a record. -/
def NEWLINE : UInt8 := 0x0a

structure LiveJsonlFramer where
  pending : List UInt8 := []
  oversized : Bool := false
  discardPrefix : Bool := false
  recordStart : Nat := 0

/-- `split_inclusive`: segments that end with their newline, and an unfinished one. -/
def splitInclusive : List UInt8 → List (List UInt8)
  | [] => []
  | byte :: rest =>
    if byte = NEWLINE then [byte] :: splitInclusive rest
    else
      match splitInclusive rest with
      | [] => [[byte]]
      | segment :: segments => (byte :: segment) :: segments

namespace LiveJsonlFramer

/-- `LiveJsonlFramer::at`. -/
def startAt (offset : Nat) (discardPrefix : Bool) : LiveJsonlFramer where
  recordStart := offset
  discardPrefix := discardPrefix

/-- Whether a record is unfinished; `LiveJsonlFramer::pending`. -/
def hasPending (framer : LiveJsonlFramer) : Bool :=
  framer.oversized || framer.discardPrefix || !framer.pending.isEmpty

def validAt (framer : LiveJsonlFramer) (offset : Nat) : Bool :=
  decide (framer.pending.length ≤ MAX_RECORD_BYTES) && decide (framer.recordStart ≤ offset) &&
    if framer.oversized || framer.discardPrefix then framer.pending.isEmpty
    else offset - framer.recordStart == framer.pending.length

def keep (framer : LiveJsonlFramer) (content : List UInt8) : LiveJsonlFramer :=
  if !framer.discardPrefix && !framer.oversized then
    if content.length > MAX_RECORD_BYTES - framer.pending.length then
      { framer with pending := [], oversized := true }
    else { framer with pending := framer.pending ++ content }
  else framer

/-- The pending bytes as the callback sees them. -/
def content (framer : LiveJsonlFramer) : Option (List UInt8) :=
  if framer.oversized then none else some framer.pending

variable {σ : Type} (record : Nat → Nat → Option (List UInt8) → σ → Bool × σ)

def pushSegments (offset : Nat) :
    List (List UInt8) → LiveJsonlFramer → σ → (consumed : Nat) → LiveJsonlFramer × σ × Nat
  | [], framer, state, consumed => (framer, state, consumed)
  | segment :: rest, framer, state, consumed =>
    let complete := segment.getLast? == some NEWLINE
    let content := if complete then segment.dropLast else segment
    let framer := framer.keep content
    let consumed := consumed + segment.length
    if complete then
      let stop := offset + consumed
      let (keepReading, state) :=
        if framer.discardPrefix then (true, state)
        else record framer.recordStart stop framer.content state
      let framer := startAt stop false
      if keepReading then pushSegments offset rest framer state consumed
      else (framer, state, consumed)
    else pushSegments offset rest framer state consumed

def push (framer : LiveJsonlFramer) (bytes : List UInt8) (offset : Nat) (state : σ) :
    LiveJsonlFramer × σ × Nat :=
  pushSegments record offset (splitInclusive bytes) framer state 0

end LiveJsonlFramer

/-! ### Pages of a growing file -/

/-- The saved form of a framer: writing one and reading it back gives the same. -/
structure FramerCodec where
  encode : LiveJsonlFramer → List UInt8
  decode : List UInt8 → Option LiveJsonlFramer
  decode_encode : ∀ framer, decode (encode framer) = some framer

/-- The part of a cursor that one read of the file moves, and what its callback
has done so far. -/
structure FrameCursor (σ : Type) where
  framer : LiveJsonlFramer
  offset : Nat
  state : σ

/-- One read: how many bytes at most, where to stop, and whether the cursor is
saved and restored behind it. -/
structure FramePage (σ : Type) where
  length : Nat
  keepReading : σ → Bool
  saved : Bool

/-- Read one page of the bytes that follow `start`. -/
def readFramePage {σ : Type} (codec : FramerCodec)
    (observe : Nat → Nat → Option (List UInt8) → σ → σ) (start : Nat) (stream : List UInt8)
    (cursor : FrameCursor σ) (page : FramePage σ) : FrameCursor σ :=
  let bytes := (stream.drop (cursor.offset - start)).take page.length
  let record := fun begin stop content state =>
    let state := observe begin stop content state
    (page.keepReading state, state)
  let (framer, state, consumed) := cursor.framer.push record bytes cursor.offset cursor.state
  let framer := if page.saved then (codec.decode (codec.encode framer)).getD {} else framer
  { framer, state, offset := cursor.offset + consumed }

/-! ### Complete lines -/

/-- One complete line of a file, as the callback sees it. -/
structure FramedLine where
  start : Nat
  stop : Nat
  content : Option (List UInt8)
  deriving DecidableEq

def recordContent (line : List UInt8) : Option (List UInt8) :=
  if line.length ≤ MAX_RECORD_BYTES then some line else none

def framedFrom (offset : Nat) : List (List UInt8) → List FramedLine
  | [] => []
  | line :: rest =>
    ⟨offset, offset + line.length + 1, recordContent line⟩ ::
      framedFrom (offset + line.length + 1) rest

def framedLines (start : Nat) (discard : Bool) (bytes : List UInt8) : List FramedLine :=
  (framedFrom start (Lines.complete NEWLINE bytes)).drop (if discard then 1 else 0)

/-- The framer behind the bytes read: it holds the tail, unless the tail is
oversized or belongs to a discarded prefix. -/
def framerAfter (start : Nat) (discard : Bool) (bytes : List UInt8) : LiveJsonlFramer :=
  let tail := Lines.tail NEWLINE bytes
  let discarding := discard && (Lines.complete NEWLINE bytes).isEmpty
  { pending := if discarding || decide (MAX_RECORD_BYTES < tail.length) then [] else tail
    oversized := !discarding && decide (MAX_RECORD_BYTES < tail.length)
    discardPrefix := discarding
    recordStart := start + (Lines.join NEWLINE (Lines.complete NEWLINE bytes)).length }

section Spec

variable {start : Nat} {discard : Bool} {bytes content : List UInt8}

lemma framerAfter_nil : framerAfter start discard [] = .startAt start discard := by
  cases discard <;> rfl

lemma framedFrom_append (offset : Nat) (lines lines' : List (List UInt8)) :
    framedFrom offset (lines ++ lines') =
      framedFrom offset lines ++ framedFrom (offset + (Lines.join NEWLINE lines).length) lines' := by
  induction lines generalizing offset with
  | nil => rfl
  | cons line rest ih =>
    show _ :: framedFrom _ (rest ++ lines') = _ :: (_ ++ _)
    rw [ih, Lines.join_cons, List.length_append, List.length_cons]
    congr 3
    omega

lemma validAt_framerAfter :
    (framerAfter start discard bytes).validAt (start + bytes.length) = true := by
  have hlen := congrArg List.length (Lines.join_complete_append_tail NEWLINE bytes)
  rw [List.length_append] at hlen
  unfold LiveJsonlFramer.validAt framerAfter
  dsimp only
  generalize (Lines.join NEWLINE (Lines.complete NEWLINE bytes)).length = joined at hlen
  generalize Lines.tail NEWLINE bytes = tail at hlen
  cases hdiscard : (discard && (Lines.complete NEWLINE bytes).isEmpty)
  · by_cases hsize : MAX_RECORD_BYTES < tail.length
    · simp [hsize]
      omega
    · simp [hsize]
      omega
  · simp
    omega

lemma keep_framerAfter (h : NEWLINE ∉ content) :
    (framerAfter start discard bytes).keep content = framerAfter start discard (bytes ++ content) := by
  have hcomp : Lines.complete NEWLINE (bytes ++ content) = Lines.complete NEWLINE bytes := by
    unfold Lines.complete
    rw [Lines.split_append_of_notMem h]
    rfl
  have htail : Lines.tail NEWLINE (bytes ++ content) = Lines.tail NEWLINE bytes ++ content := by
    unfold Lines.tail
    rw [Lines.split_append_of_notMem h]
    rfl
  unfold framerAfter LiveJsonlFramer.keep
  simp only [hcomp, htail, List.length_append]
  generalize Lines.tail NEWLINE bytes = tail
  cases hdiscard : (discard && (Lines.complete NEWLINE bytes).isEmpty)
  · by_cases hsize : MAX_RECORD_BYTES < tail.length
    · have hmore : MAX_RECORD_BYTES < tail.length + content.length := by omega
      simp [hsize, hmore]
    · by_cases hmore : MAX_RECORD_BYTES < tail.length + content.length
      · have hover : content.length > MAX_RECORD_BYTES - tail.length := by omega
        simp [hsize, hmore, hover]
      · have hfits : ¬ content.length > MAX_RECORD_BYTES - tail.length := by omega
        simp [hsize, hmore, hfits]
  · simp

variable (start discard bytes) in
lemma framerAfter_newline :
    framerAfter start discard (bytes ++ [NEWLINE]) =
      .startAt (start + (bytes ++ [NEWLINE]).length) false := by
  have hlen := congrArg List.length (Lines.join_complete_append_tail NEWLINE bytes)
  rw [List.length_append] at hlen
  unfold framerAfter Lines.complete Lines.tail LiveJsonlFramer.startAt
  rw [Lines.split_append_sep]
  simp [Lines.join_append, Lines.join_cons]
  omega

lemma content_framerAfter (h : (framerAfter start discard bytes).discardPrefix = false) :
    (framerAfter start discard bytes).content = recordContent (Lines.tail NEWLINE bytes) := by
  have hdisc : (discard && (Lines.complete NEWLINE bytes).isEmpty) = false := h
  unfold LiveJsonlFramer.content framerAfter recordContent
  simp only [hdisc, Bool.not_false, Bool.true_and, Bool.false_or, decide_eq_true_eq]
  by_cases hsize : MAX_RECORD_BYTES < (Lines.tail NEWLINE bytes).length
  · rw [if_pos hsize, if_neg (by omega)]
  · rw [if_neg hsize, if_neg hsize, if_pos (by omega)]

variable (start discard bytes) in
lemma framedLines_newline :
    framedLines start discard (bytes ++ [NEWLINE]) = framedLines start discard bytes ++
      if (framerAfter start discard bytes).discardPrefix then []
      else [⟨(framerAfter start discard bytes).recordStart, start + (bytes ++ [NEWLINE]).length,
        (framerAfter start discard bytes).content⟩] := by
  have hlen := congrArg List.length (Lines.join_complete_append_tail NEWLINE bytes)
  rw [List.length_append] at hlen
  have hcomp : Lines.complete NEWLINE (bytes ++ [NEWLINE]) =
      Lines.complete NEWLINE bytes ++ [Lines.tail NEWLINE bytes] := by
    unfold Lines.complete
    rw [Lines.split_append_sep]
    rfl
  have hline : framedFrom (start + (Lines.join NEWLINE (Lines.complete NEWLINE bytes)).length)
      [Lines.tail NEWLINE bytes] =
      [⟨start + (Lines.join NEWLINE (Lines.complete NEWLINE bytes)).length,
        start + (bytes ++ [NEWLINE]).length, recordContent (Lines.tail NEWLINE bytes)⟩] := by
    unfold framedFrom framedFrom
    rw [List.length_append, List.length_singleton]
    congr 2
    omega
  unfold framedLines
  rw [hcomp, framedFrom_append, hline]
  cases hdisc : (framerAfter start discard bytes).discardPrefix with
  | true =>
    -- the discarded prefix ends here: it is the first line, which is dropped
    have hfirst : (discard && (Lines.complete NEWLINE bytes).isEmpty) = true := hdisc
    rw [Bool.and_eq_true, List.isEmpty_iff] at hfirst
    rw [hfirst.1, hfirst.2]
    rfl
  | false =>
    have hfirst : (discard && (Lines.complete NEWLINE bytes).isEmpty) = false := hdisc
    rw [content_framerAfter hdisc, List.drop_append_of_le_length]
    · rfl
    · cases discard with
      | false => exact Nat.zero_le _
      | true =>
        cases hlines : Lines.complete NEWLINE bytes with
        | nil =>
          rw [hlines] at hfirst
          cases hfirst
        | cons line rest => exact Nat.succ_le_succ (Nat.zero_le _)

end Spec

/-! ### What a push and a run of pages do -/

section Push

variable {σ : Type} {record : Nat → Nat → Option (List UInt8) → σ → Bool × σ}
  {start : Nat} {discard : Bool} {bytes : List UInt8}

def observeLines (observe : Nat → Nat → Option (List UInt8) → σ → σ) (state : σ)
    (lines : List FramedLine) : σ :=
  lines.foldl (fun state line => observe line.start line.stop line.content state) state

def Segmented : List (List UInt8) → Prop
  | [] => True
  | segment :: rest =>
    (∃ content, NEWLINE ∉ content ∧
      (segment = content ++ [NEWLINE] ∨ (segment = content ∧ content ≠ [] ∧ rest = []))) ∧
      Segmented rest

lemma segmented_splitInclusive (bytes : List UInt8) :
    Segmented (splitInclusive bytes) ∧ (splitInclusive bytes).flatten = bytes := by
  induction bytes with
  | nil => exact ⟨trivial, rfl⟩
  | cons byte rest ih =>
    obtain ⟨hsegm, hflat⟩ := ih
    unfold splitInclusive
    by_cases hbyte : byte = NEWLINE
    · rw [if_pos hbyte]
      refine ⟨⟨⟨[], List.not_mem_nil, .inl (by rw [hbyte]; rfl)⟩, hsegm⟩, ?_⟩
      rw [List.flatten_cons, hflat]
      rfl
    · rw [if_neg hbyte]
      cases hsplit : splitInclusive rest with
      | nil =>
        rw [hsplit] at hflat
        rw [← hflat]
        exact ⟨⟨⟨[byte], by simpa using Ne.symm hbyte, .inr ⟨rfl, by simp, rfl⟩⟩, trivial⟩, rfl⟩
      | cons seg segs =>
        rw [hsplit] at hflat hsegm
        obtain ⟨⟨content, hcont, hseg⟩, hrest⟩ := hsegm
        have hnew : NEWLINE ∉ byte :: content := by
          rw [List.mem_cons, not_or]
          exact ⟨Ne.symm hbyte, hcont⟩
        refine ⟨⟨⟨byte :: content, hnew, ?_⟩, hrest⟩, ?_⟩
        · rcases hseg with rfl | ⟨rfl, -, rfl⟩
          · exact .inl rfl
          · exact .inr ⟨rfl, by simp, rfl⟩
        · rw [← hflat]
          rfl

variable (start discard) in
lemma pushSegments_spec (observe : Nat → Nat → Option (List UInt8) → σ → σ)
    (hobserve : ∀ begin stop content state,
      (record begin stop content state).2 = observe begin stop content state)
    (initial : σ) (before segs) (hsegs : Segmented segs) (consumed : List UInt8) :
    ∃ taken rest, segs.flatten = taken ++ rest ∧
      LiveJsonlFramer.pushSegments record (start + before.length) segs
          (framerAfter start discard (before ++ consumed))
          (observeLines observe initial (framedLines start discard (before ++ consumed)))
          consumed.length =
        (framerAfter start discard (before ++ consumed ++ taken),
          observeLines observe initial (framedLines start discard (before ++ consumed ++ taken)),
          consumed.length + taken.length) := by
  induction segs generalizing consumed with
  | nil => exact ⟨[], [], rfl, by simp [LiveJsonlFramer.pushSegments]⟩
  | cons seg segs ih =>
    obtain ⟨⟨content, hcont, hseg⟩, hrest⟩ := hsegs
    have hkeep : (framerAfter start discard (before ++ consumed)).keep content =
        framerAfter start discard (before ++ consumed ++ content) := keep_framerAfter hcont
    have hlines : framedLines start discard (before ++ consumed ++ content) =
        framedLines start discard (before ++ consumed) := by
      unfold framedLines Lines.complete
      rw [Lines.split_append_of_notMem hcont]
      rfl
    rcases hseg with rfl | ⟨rfl, hne, rfl⟩
    · -- a complete record
      have hlast : ((content ++ [NEWLINE]).getLast? == some NEWLINE) = true := by simp
      have hstop : start + before.length + (consumed.length + (content ++ [NEWLINE]).length) =
          start + (before ++ consumed ++ content ++ [NEWLINE]).length := by
        simp only [List.length_append]
        omega
      have hnext := framedLines_newline start discard (before ++ consumed ++ content)
      have hframer := framerAfter_newline start discard (before ++ consumed ++ content)
      obtain ⟨keepReading, hrecord⟩ : ∃ keepReading,
          (if (framerAfter start discard (before ++ consumed ++ content)).discardPrefix then
              (true, observeLines observe initial (framedLines start discard (before ++ consumed)))
            else record (framerAfter start discard (before ++ consumed ++ content)).recordStart
              (start + (before ++ consumed ++ content ++ [NEWLINE]).length)
              (framerAfter start discard (before ++ consumed ++ content)).content
              (observeLines observe initial (framedLines start discard (before ++ consumed)))) =
            (keepReading, observeLines observe initial
              (framedLines start discard (before ++ consumed ++ content ++ [NEWLINE]))) := by
        rw [hnext, hlines]
        split_ifs
        · exact ⟨true, by rw [List.append_nil]⟩
        · refine ⟨_, Prod.ext rfl ?_⟩
          rw [hobserve]
          unfold observeLines
          rw [List.foldl_append]
          rfl
      unfold LiveJsonlFramer.pushSegments
      simp only [hlast, if_true, List.dropLast_concat, hkeep, hstop, ← hframer, hrecord]
      cases keepReading with
      | true =>
        obtain ⟨taken, rest, hflat, hpush⟩ := ih hrest (consumed ++ (content ++ [NEWLINE]))
        refine ⟨content ++ [NEWLINE] ++ taken, rest, ?_, ?_⟩
        · rw [List.flatten_cons, hflat]
          simp only [List.append_assoc]
        · simp only [List.append_assoc, List.length_append, Nat.add_assoc, if_true] at hpush ⊢
          exact hpush
      | false =>
        refine ⟨content ++ [NEWLINE], segs.flatten, rfl, ?_⟩
        simp only [List.append_assoc, List.length_append, Bool.false_eq_true, if_false]
    · -- the unfinished tail
      have hlast : (seg.getLast? == some NEWLINE) = false := by
        rw [beq_eq_false_iff_ne]
        intro heq
        exact hcont (List.mem_of_getLast? heq)
      refine ⟨seg, [], by simp, ?_⟩
      simp only [LiveJsonlFramer.pushSegments, hlast, Bool.false_eq_true, if_false, hkeep, hlines]

variable (start discard bytes record) in
/-- **A push observes the lines that the bytes it consumes complete.** -/
lemma push_spec (observe : Nat → Nat → Option (List UInt8) → σ → σ)
    (hobserve : ∀ begin stop content state,
      (record begin stop content state).2 = observe begin stop content state)
    (initial : σ) (before : List UInt8) :
    ∃ taken rest, bytes = taken ++ rest ∧
      (framerAfter start discard before).push record bytes (start + before.length)
          (observeLines observe initial (framedLines start discard before)) =
        (framerAfter start discard (before ++ taken),
          observeLines observe initial (framedLines start discard (before ++ taken)),
          taken.length) := by
  obtain ⟨hsegs, hflat⟩ := segmented_splitInclusive bytes
  obtain ⟨taken, rest, htaken, hpush⟩ := pushSegments_spec start discard
    observe hobserve initial before (splitInclusive bytes) hsegs []
  refine ⟨taken, rest, hflat.symm.trans htaken, ?_⟩
  unfold LiveJsonlFramer.push
  simpa using hpush

/-! ### Runs of pages -/

/-- Where a cursor stands that has read a prefix of the stream. -/
structure FrameCursor.Behind (observe : Nat → Nat → Option (List UInt8) → σ → σ) (initial : σ)
    (start : Nat) (discard : Bool) (cursor : FrameCursor σ) (bytes : List UInt8) : Prop where
  framer : cursor.framer = framerAfter start discard bytes
  offset : cursor.offset = start + bytes.length
  state : cursor.state = observeLines observe initial (framedLines start discard bytes)

def FrameCursor.startAt (initial : σ) (start : Nat) (discard : Bool) : FrameCursor σ where
  framer := .startAt start discard
  offset := start
  state := initial

lemma readFramePage_behind {codec : FramerCodec}
    {observe : Nat → Nat → Option (List UInt8) → σ → σ} {initial : σ} {cursor : FrameCursor σ}
    {before stream : List UInt8} (h : cursor.Behind observe initial start discard before)
    (hpre : before <+: stream) (page : FramePage σ) :
    ∃ after, after <+: stream ∧
      (readFramePage codec observe start stream cursor page).Behind observe initial start discard
        after := by
  obtain ⟨remaining, rfl⟩ := hpre
  obtain ⟨framer, offset, state⟩ := cursor
  obtain ⟨rfl, rfl, rfl⟩ := h
  unfold readFramePage
  have hdrop : (before ++ remaining).drop (start + before.length - start) = remaining := by
    rw [Nat.add_sub_cancel_left, List.drop_left]
  dsimp only
  rw [hdrop]
  obtain ⟨taken, rest, htaken, hpush⟩ := push_spec
    (fun begin stop content state =>
      (page.keepReading (observe begin stop content state), observe begin stop content state))
    start discard (remaining.take page.length) observe (fun _ _ _ _ => rfl) initial before
  refine ⟨before ++ taken, ?_, ?_⟩
  · refine ⟨rest ++ remaining.drop page.length, ?_⟩
    rw [List.append_assoc, ← List.append_assoc taken, ← htaken, List.take_append_drop]
  · rw [hpush]
    refine ⟨?_, ?_, rfl⟩
    · dsimp only
      split_ifs
      · rw [codec.decode_encode]
        rfl
      · rfl
    · rw [List.length_append, ← Nat.add_assoc]

/-- **However the pages are cut, stopped and saved, they observe the complete
lines of the bytes read.** -/
lemma readPages_behind (codec : FramerCodec)
    (observe : Nat → Nat → Option (List UInt8) → σ → σ) (initial : σ) (start : Nat)
    (discard : Bool) (stream : List UInt8) (pages : List (FramePage σ)) :
    ∃ bytes, bytes <+: stream ∧
      (pages.foldl (readFramePage codec observe start stream)
        (.startAt initial start discard)).Behind observe initial start discard bytes := by
  induction pages using List.reverseRecOn with
  | nil => exact ⟨[], List.nil_prefix, ⟨framerAfter_nil.symm, rfl, by
      cases discard <;> rfl⟩⟩
  | append_singleton pages page ih =>
    obtain ⟨before, hpre, hbehind⟩ := ih
    rw [List.foldl_append]
    exact readFramePage_behind hbehind hpre page

end Push

end Antiburn
