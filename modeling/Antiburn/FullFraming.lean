/-
Bounded newline framing for JSONL transcript records.

The reader retains at most one record and drains an oversized one through its
newline.  A full pass over newline-terminated bytes gives one record for each
line that is not blank, in order, however the source delivers the bytes
(`fullPass_join`).
-/
import Antiburn.Lib.Saturating
import Antiburn.LiveFraming

namespace Antiburn

def SCAN_QUANTUM_BYTES : Nat := 64 * 1024

/-! ### Blank lines -/

/-- `char::is_whitespace`: the Unicode property White_Space. -/
def isWhiteSpace (c : Char) : Bool :=
  let code := c.toNat
  (0x09 ≤ code && code ≤ 0x0d) || code == 0x20 || code == 0x85 || code == 0xa0 ||
    code == 0x1680 || (0x2000 ≤ code && code ≤ 0x200a) || code == 0x2028 || code == 0x2029 ||
    code == 0x202f || code == 0x205f || code == 0x3000

def isWhitespaceOnly (bytes : List UInt8) : Bool :=
  match (ByteArray.mk bytes.toArray).utf8Decode? with
  | some chars => chars.toList.all isWhiteSpace
  | none => false

/-- `u8::is_ascii_whitespace`. -/
def isAsciiWhitespaceByte (byte : UInt8) : Bool :=
  byte == 0x20 || byte == 0x09 || byte == 0x0a || byte == 0x0c || byte == 0x0d

def stripCarriageReturn (record : List UInt8) : List UInt8 :=
  if record.getLast? = some 0x0d then record.dropLast else record

/-! ### The reader -/

inductive RecordSkip (κ : Type) where
  | oversized (index droppedBytes : Nat)
  | incompleteTail (index droppedBytes : Nat)
  | cancelled (index : Nat)
  | readFailed (index : Nat) (kind : κ)
  deriving DecidableEq

inductive FramedRecord (κ : Type) where
  | complete (index : Nat) (bytes : List UInt8)
  | skipped (skip : RecordSkip κ)

/-- The reader, with what its source delivers (one slice for each time the buffer
is filled, an empty one at the end) and what its cancel callback answers. -/
structure BoundedJsonlReader (κ : Type) where
  source : List (Except κ (List UInt8))
  cancels : List Bool := []
  record : List UInt8 := []
  maxRecordBytes : Nat := MAX_RECORD_BYTES
  retainedRecordBytesHighWater : Nat := 0
  nextIndex : Nat := 0
  terminal : Bool := false

def FramedRecord.entry {κ : Type} : FramedRecord κ → Nat × Option (List UInt8)
  | .complete index bytes => (index, some bytes)
  | .skipped (.oversized index _) => (index, none)
  | .skipped (.incompleteTail index _) => (index, none)
  | .skipped (.cancelled index) => (index, none)
  | .skipped (.readFailed index _) => (index, none)

namespace BoundedJsonlReader

variable {κ : Type}

def takeIndex (reader : BoundedJsonlReader κ) : Nat × BoundedJsonlReader κ :=
  (reader.nextIndex, { reader with nextIndex := saturatingAdd reader.nextIndex 1 })

def finishTerminal (reader : BoundedJsonlReader κ) (skip : RecordSkip κ) :
    Option (FramedRecord κ) × BoundedJsonlReader κ :=
  (some (.skipped skip), { reader with record := [], terminal := true })

def cancel (reader : BoundedJsonlReader κ) : Bool × BoundedJsonlReader κ :=
  match reader.cancels with
  | [] => (false, reader)
  | answer :: rest => (answer, { reader with cancels := rest })

def consume (source : List (Except κ (List UInt8))) (count : Nat) : List (Except κ (List UInt8)) :=
  match source with
  | .ok available :: rest =>
    if count < available.length then .ok (available.drop count) :: rest else rest
  | source => source

def retain (reader : BoundedJsonlReader κ) (content : List UInt8) (oversized : Bool) :
    Bool × BoundedJsonlReader κ :=
  if oversized then (oversized, reader)
  else
    let remaining := reader.maxRecordBytes - reader.record.length
    let retained := min content.length remaining
    let reader :=
      if retained > 0 then
        let record := reader.record ++ content.take retained
        { reader with
          record
          retainedRecordBytesHighWater := max reader.retainedRecordBytesHighWater record.length }
      else reader
    if content.length > remaining then (true, { reader with record := [] }) else (false, reader)

/-- The record of a line whose newline has been consumed; `none` for a blank line. -/
def endLine (reader : BoundedJsonlReader κ) (recordBytes : Nat) (oversized : Bool) :
    Option (FramedRecord κ) × BoundedJsonlReader κ :=
  let (index, reader) := reader.takeIndex
  if oversized then (some (.skipped (.oversized index recordBytes)), reader)
  else
    let reader := { reader with record := stripCarriageReturn reader.record }
    if isWhitespaceOnly reader.record then (none, { reader with nextIndex := index })
    else (some (.complete index reader.record), reader)

def afterLine
    (next : BoundedJsonlReader κ → Option (FramedRecord κ) × BoundedJsonlReader κ) :
    Option (FramedRecord κ) × BoundedJsonlReader κ → Option (FramedRecord κ) × BoundedJsonlReader κ
  | (some record, reader) => (some record, reader)
  | (none, reader) =>
    let (cancelled, reader) := { reader with record := [] }.cancel
    if cancelled then
      let (index, reader) := reader.takeIndex
      reader.finishTerminal (.cancelled index)
    else next reader

/-- The scanning loop of `next_record`, from the middle of a line; a round is one
step of at most a quantum. -/
def scan : (rounds : Nat) → BoundedJsonlReader κ → (recordBytes : Nat) → (oversized : Bool) →
    Option (FramedRecord κ) × BoundedJsonlReader κ
  | 0, reader, _, _ => (none, reader)
  | rounds + 1, reader, recordBytes, oversized =>
    match reader.source with
    | .error kind :: _ =>
      let (index, reader) := reader.takeIndex
      reader.finishTerminal (.readFailed index kind)
    | [] | .ok [] :: _ =>
      if recordBytes = 0 then (none, { reader with terminal := true })
      else
        let (index, reader) := reader.takeIndex
        reader.finishTerminal (.incompleteTail index recordBytes)
    | .ok available :: _ =>
      let step := available.take SCAN_QUANTUM_BYTES
      let (cancelled, reader) := reader.cancel
      if cancelled then
        let (index, reader) := reader.takeIndex
        reader.finishTerminal (.cancelled index)
      else
        let newline := step.findIdx? (· == NEWLINE)
        let content := step.take (newline.getD step.length)
        let recordBytes := saturatingAdd recordBytes content.length
        let (oversized, reader) := reader.retain content oversized
        let consumed := newline.elim step.length (· + 1)
        let reader := { reader with source := consume reader.source consumed }
        match newline with
        | none => scan rounds reader recordBytes oversized
        | some _ =>
          afterLine (fun reader => scan rounds reader 0 false)
            (reader.endLine recordBytes oversized)

/-- The next record; `none` behind the last one. -/
def nextRecord (rounds : Nat) (reader : BoundedJsonlReader κ) :
    Option (FramedRecord κ) × BoundedJsonlReader κ :=
  if reader.terminal then (none, reader)
  else afterLine (fun reader => scan rounds reader 0 false) (none, reader)

def fullPass (rounds : Nat) : (calls : Nat) → BoundedJsonlReader κ → List (FramedRecord κ)
  | 0, _ => []
  | calls + 1, reader =>
    match nextRecord rounds reader with
    | (none, _) => []
    | (some record, reader) => record :: fullPass rounds calls reader

/-! ### A pass over newline-terminated bytes -/

section Pass

variable {reader : BoundedJsonlReader κ} {chunks : List (List UInt8)}

/-- A reader in the middle of a line that nobody cancels, with the slices to come. -/
structure Reading (reader : BoundedJsonlReader κ) (chunks : List (List UInt8)) : Prop where
  source : reader.source = chunks.map .ok
  nonempty : ∀ chunk ∈ chunks, chunk ≠ []
  cancels : reader.cancels = []
  terminal : reader.terminal = false

lemma consume_spec (hne : ∀ chunk ∈ chunks, chunk ≠ [])
    {taken rest available : List UInt8} (h : available = taken ++ rest) :
    ∃ chunks' : List (List UInt8),
      consume ((available :: chunks).map (Except.ok (ε := κ))) taken.length = chunks'.map .ok ∧
        chunks'.flatten = rest ++ chunks.flatten ∧ ∀ chunk ∈ chunks', chunk ≠ [] := by
  subst h
  unfold consume
  simp only [List.map_cons, List.length_append]
  cases rest with
  | nil => exact ⟨chunks, by simp, rfl, hne⟩
  | cons byte rest =>
    refine ⟨(byte :: rest) :: chunks, by simp, rfl, ?_⟩
    intro chunk hchunk
    rcases List.mem_cons.mp hchunk with rfl | hchunk
    · exact List.cons_ne_nil _ _
    · exact hne chunk hchunk

structure Retains (reader : BoundedJsonlReader κ) (line : List UInt8) (oversized : Bool) : Prop where
  oversized : oversized = decide (reader.maxRecordBytes < line.length)
  record : reader.record = if reader.maxRecordBytes < line.length then [] else line

lemma retain_spec {line : List UInt8} (content : List UInt8) {oversized : Bool}
    (h : Retains reader line oversized) :
    ∃ record highWater,
      reader.retain content oversized =
          (decide (reader.maxRecordBytes < (line ++ content).length),
            { reader with record, retainedRecordBytesHighWater := highWater }) ∧
        record = if reader.maxRecordBytes < (line ++ content).length then [] else line ++ content := by
  obtain ⟨hovers, hrecord⟩ := h
  rw [List.length_append]
  unfold retain
  by_cases hline : reader.maxRecordBytes < line.length
  · rw [if_pos hline] at hrecord
    have hmore : reader.maxRecordBytes < line.length + content.length := by omega
    refine ⟨reader.record, reader.retainedRecordBytesHighWater, ?_, ?_⟩
    · simp [hovers, hline, hmore]
    · rw [if_pos hmore, hrecord]
  · rw [if_neg hline] at hrecord
    subst hrecord
    simp only [hovers, hline, decide_false, Bool.false_eq_true, if_false]
    by_cases hmore : reader.maxRecordBytes < reader.record.length + content.length
    · have hover : content.length > reader.maxRecordBytes - reader.record.length := by omega
      simp only [hover, hmore, if_true, decide_true]
      split_ifs <;> exact ⟨[], _, rfl, rfl⟩
    · have hfits : ¬ content.length > reader.maxRecordBytes - reader.record.length := by omega
      have hmin : min content.length (reader.maxRecordBytes - reader.record.length) =
          content.length := by omega
      simp only [hfits, hmore, if_false, decide_false, hmin, List.take_length]
      split_ifs with hpos
      · exact ⟨_, _, rfl, rfl⟩
      · have hnil : content = [] := List.eq_nil_of_length_eq_zero (by omega)
        subst hnil
        exact ⟨_, _, rfl, (List.append_nil _).symm⟩

/-- **The scanning loop ends a line at its newline.** -/
lemma scan_line {rounds : Nat} {line content rest : List UInt8} (recordBytes : Nat)
    {oversized : Bool} (hread : Reading reader chunks)
    (hchunks : chunks.flatten = content ++ NEWLINE :: rest) (hcont : NEWLINE ∉ content)
    (hretains : Retains reader line oversized) (hrounds : content.length < rounds) :
    ∃ rounds' reader' chunks' recordBytes' oversized', Reading reader' chunks' ∧
      chunks'.flatten = rest ∧ rounds ≤ rounds' + content.length + 1 ∧
      Retains reader' (line ++ content) oversized' ∧ reader'.nextIndex = reader.nextIndex ∧
      reader'.maxRecordBytes = reader.maxRecordBytes ∧
      scan rounds reader recordBytes oversized =
        afterLine (fun reader => scan rounds' reader 0 false)
          (reader'.endLine recordBytes' oversized') := by
  induction rounds generalizing reader chunks line content recordBytes oversized with
  | zero => exact absurd hrounds (Nat.not_lt_zero _)
  | succ rounds ih =>
    obtain ⟨hsource, hne, hcanc, hterm⟩ := hread
    cases chunks with
    | nil => simp at hchunks
    | cons available more =>
      have havail : available ≠ [] := hne _ List.mem_cons_self
      have hmore : ∀ chunk ∈ more, chunk ≠ [] :=
        fun chunk h => hne chunk (List.mem_cons_of_mem _ h)
      have hcancel : reader.cancel = (false, reader) := by
        unfold cancel
        rw [hcanc]
      have hstep : available.take SCAN_QUANTUM_BYTES ++
          (available.drop SCAN_QUANTUM_BYTES ++ more.flatten) = content ++ NEWLINE :: rest := by
        rw [← List.append_assoc, List.take_append_drop, ← hchunks, List.flatten_cons]
      have hstepne : available.take SCAN_QUANTUM_BYTES ≠ [] := by
        simp [havail, SCAN_QUANTUM_BYTES]
      -- either the step ends before the newline, or it holds it
      have hcases : (∃ behind, content = available.take SCAN_QUANTUM_BYTES ++ behind ∧
            available.drop SCAN_QUANTUM_BYTES ++ more.flatten = behind ++ NEWLINE :: rest) ∨
          ∃ behind, available.take SCAN_QUANTUM_BYTES = content ++ NEWLINE :: behind ∧
            rest = behind ++ (available.drop SCAN_QUANTUM_BYTES ++ more.flatten) := by
        rcases List.append_eq_append_iff.mp hstep with ⟨behind, h, h'⟩ | ⟨behind, h, h'⟩
        · exact .inl ⟨behind, h, h'⟩
        · cases behind with
          | nil => exact .inl ⟨[], by simpa using h.symm, by simpa using h'.symm⟩
          | cons byte behind =>
            injection h' with hbyte h'
            subst hbyte
            exact .inr ⟨behind, h, h'⟩
      have hscan : scan (rounds + 1) reader recordBytes oversized =
          (let step := available.take SCAN_QUANTUM_BYTES
          let newline := step.findIdx? (· == NEWLINE)
          let content := step.take (newline.getD step.length)
          let recordBytes := saturatingAdd recordBytes content.length
          let (oversized, reader) := reader.retain content oversized
          let consumed := newline.elim step.length (· + 1)
          let reader := { reader with source := consume reader.source consumed }
          match newline with
          | none => scan rounds reader recordBytes oversized
          | some _ =>
            afterLine (fun reader => scan rounds reader 0 false)
              (reader.endLine recordBytes oversized)) := by
        obtain ⟨byte, bytes, rfl⟩ := List.exists_cons_of_ne_nil havail
        conv_lhs => unfold scan
        rw [hsource]
        simp only [List.map_cons, hcancel, Bool.false_eq_true, if_false]
      rw [hscan]
      rcases hcases with ⟨behind, hbehind, hremain⟩ | ⟨behind, hbehind, hremain⟩
      · -- the line goes on behind this step
        generalize hstepdef : available.take SCAN_QUANTUM_BYTES = step at *
        have hnotMem : NEWLINE ∉ step := fun h => hcont (hbehind ▸ List.mem_append_left _ h)
        have hfind : step.findIdx? (· == NEWLINE) = none := by
          rw [List.findIdx?_eq_none_iff]
          intro byte hbyte
          rw [beq_eq_false_iff_ne]
          exact fun h => hnotMem (h ▸ hbyte)
        obtain ⟨record, highWater, hretain, hrecord⟩ := retain_spec step hretains
        obtain ⟨chunks', hcons, hflat, hne'⟩ := consume_spec (κ := κ) hmore
          (show available = step ++ available.drop SCAN_QUANTUM_BYTES by
            rw [← hstepdef, List.take_append_drop])
        simp only [hfind, Option.getD_none, Option.elim_none, List.take_length, hretain, hsource,
          hcons]
        have hpos : 0 < step.length := List.length_pos_iff.mpr hstepne
        have hlen : content.length = step.length + behind.length := by
          rw [hbehind, List.length_append]
        have hread : Reading
            ({ reader with
              source := chunks'.map .ok
              record
              retainedRecordBytesHighWater := highWater } : BoundedJsonlReader κ) chunks' :=
          ⟨rfl, hne', hcanc, hterm⟩
        obtain ⟨rounds', reader', chunks'', recordBytes', oversized', hread', hchunks',
            hrounds', hretains', hindex, hmax, hscan'⟩ :=
          ih _ hread (hflat.trans hremain)
            (fun h => hcont (hbehind ▸ List.mem_append_right _ h)) ⟨rfl, hrecord⟩ (by omega)
        refine ⟨rounds', reader', chunks'', recordBytes', oversized', hread', hchunks', by omega,
          ?_, hindex, hmax, hscan'⟩
        rw [hbehind, ← List.append_assoc]
        exact hretains'
      · -- the step holds the newline
        generalize hstepdef : available.take SCAN_QUANTUM_BYTES = step at *
        have hfind : step.findIdx? (· == NEWLINE) = some content.length := by
          rw [hbehind, List.findIdx?_append]
          have hnone : content.findIdx? (· == NEWLINE) = none := by
            rw [List.findIdx?_eq_none_iff]
            intro byte hbyte
            rw [beq_eq_false_iff_ne]
            exact fun h => hcont (h ▸ hbyte)
          rw [hnone]
          simp [List.findIdx?_cons]
        have htake : step.take content.length = content := by
          rw [hbehind, List.take_left]
        obtain ⟨record, highWater, hretain, hrecord⟩ := retain_spec content hretains
        obtain ⟨chunks', hcons, hflat, hne'⟩ := consume_spec (κ := κ) hmore
          (show available = (content ++ [NEWLINE]) ++
              (behind ++ available.drop SCAN_QUANTUM_BYTES) by
            rw [List.append_assoc, List.singleton_append, ← List.cons_append,
              ← List.append_assoc, ← hbehind, ← hstepdef, List.take_append_drop])
        rw [List.length_append, List.length_singleton] at hcons
        simp only [hfind, Option.getD_some, Option.elim_some, htake, hretain, hsource, hcons]
        refine ⟨rounds,
          { reader with
            source := chunks'.map .ok
            record
            retainedRecordBytesHighWater := highWater },
          chunks', _, _, ⟨rfl, hne', hcanc, hterm⟩, ?_, by omega, ⟨rfl, hrecord⟩, rfl,
          rfl, rfl⟩
        rw [hflat, hremain, List.append_assoc]

def fullRecords (maxRecordBytes : Nat) :
    (index : Nat) → List (List UInt8) → List (Nat × Option (List UInt8))
  | _, [] => []
  | index, line :: rest =>
    if maxRecordBytes < line.length then
      (index, none) :: fullRecords maxRecordBytes (saturatingAdd index 1) rest
    else if isWhitespaceOnly (stripCarriageReturn line) then fullRecords maxRecordBytes index rest
    else
      (index, some (stripCarriageReturn line)) ::
        fullRecords maxRecordBytes (saturatingAdd index 1) rest

def passFrom (rounds calls : Nat) (result : Option (FramedRecord κ) × BoundedJsonlReader κ) :
    List (FramedRecord κ) :=
  match result with
  | (none, _) => []
  | (some record, reader) => record :: fullPass rounds calls reader

lemma fullPass_succ (rounds calls : Nat) (reader : BoundedJsonlReader κ) :
    fullPass rounds (calls + 1) reader = passFrom rounds calls (nextRecord rounds reader) := rfl

section

variable (hread : Reading reader chunks)
include hread

lemma afterLine_none (rounds : Nat) :
    afterLine (fun reader => scan rounds reader 0 false) (none, reader) =
      scan rounds { reader with record := [] } 0 false := by
  unfold afterLine cancel
  simp only [hread.cancels, Bool.false_eq_true, if_false]

lemma nextRecord_eq (rounds : Nat) :
    nextRecord rounds reader = scan rounds { reader with record := [] } 0 false := by
  unfold nextRecord
  rw [if_neg (by rw [hread.terminal]; exact Bool.false_ne_true), afterLine_none hread]

lemma reading_record (record : List UInt8) (index : Nat) :
    Reading { reader with record, nextIndex := index } chunks :=
  ⟨hread.source, hread.nonempty, hread.cancels, hread.terminal⟩

end

/-- **A pass gives one record for each line that is not blank**, whatever slices
the source delivers. -/
lemma passFrom_scan {rounds callRounds calls : Nat} (lines : List (List UInt8))
    (hlines : ∀ line ∈ lines, NEWLINE ∉ line) (hread : Reading reader chunks)
    (hrecord : reader.record = []) (hchunks : chunks.flatten = Lines.join NEWLINE lines)
    (hrounds : (Lines.join NEWLINE lines).length < rounds)
    (hcallRounds : (Lines.join NEWLINE lines).length < callRounds) (hcalls : lines.length ≤ calls) :
    (passFrom callRounds calls (scan rounds reader 0 false)).map FramedRecord.entry =
      fullRecords reader.maxRecordBytes reader.nextIndex lines := by
  induction lines generalizing reader chunks rounds calls with
  | nil =>
    obtain ⟨rounds, rfl⟩ := Nat.exists_eq_add_one_of_ne_zero (Nat.ne_of_gt (Nat.zero_lt_of_lt hrounds))
    have hempty : chunks = [] := by
      cases chunks with
      | nil => rfl
      | cons chunk rest =>
        have hchunk := (List.append_eq_nil_iff.mp hchunks).1
        exact absurd hchunk (hread.nonempty _ List.mem_cons_self)
    unfold scan
    rw [hread.source, hempty]
    rfl
  | cons line lines ih =>
    rw [Lines.join_cons] at hchunks hrounds hcallRounds
    rw [List.length_append, List.length_cons] at hrounds hcallRounds
    have hline : NEWLINE ∉ line := hlines line List.mem_cons_self
    have hrest : ∀ line ∈ lines, NEWLINE ∉ line := fun l h => hlines l (List.mem_cons_of_mem _ h)
    have hretains : Retains reader [] false := by
      refine ⟨by simp, ?_⟩
      rw [hrecord]
      split_ifs <;> rfl
    have hlen : line.length < rounds := by omega
    obtain ⟨rounds', reader', chunks', recordBytes', oversized', hread', hchunks', hrounds',
        hretains', hindex, hmax, hscan⟩ :=
      scan_line 0 hread hchunks hline hretains hlen
    rw [List.nil_append] at hretains'
    obtain ⟨hovers, hrecord'⟩ := hretains'
    obtain ⟨calls, rfl⟩ := Nat.exists_eq_add_one_of_ne_zero
      (show calls ≠ 0 by rw [List.length_cons] at hcalls; omega)
    have hcalls' : lines.length ≤ calls := Nat.le_of_succ_le_succ hcalls
    -- the next call reads the remaining lines
    have hnext : ∀ (record : List UInt8) (index : Nat),
        (fullPass callRounds (calls + 1) { reader' with record, nextIndex := index }).map
            FramedRecord.entry = fullRecords reader'.maxRecordBytes index lines := by
      intro record index
      rw [fullPass_succ, nextRecord_eq (reading_record hread' record index)]
      exact ih hrest (reading_record hread' [] index) rfl hchunks' (by omega) (by omega) hcalls'
    rw [hscan]
    unfold fullRecords endLine takeIndex
    rw [← hmax, ← hindex]
    by_cases hsize : reader'.maxRecordBytes < line.length
    · -- an oversized line takes an index
      rw [if_pos hsize]
      simp only [hovers, hsize, decide_true, if_true, afterLine]
      exact congrArg (List.cons _) (hnext reader'.record _)
    · rw [if_neg hsize] at hrecord' ⊢
      simp only [hovers, hsize, decide_false, Bool.false_eq_true, if_false, hrecord']
      by_cases hblank : isWhitespaceOnly (stripCarriageReturn line) = true
      · -- the call goes on behind a blank line
        rw [if_pos hblank, if_pos hblank,
          afterLine_none (reading_record hread' (stripCarriageReturn line) reader'.nextIndex)]
        exact ih hrest (reading_record hread' [] reader'.nextIndex) rfl hchunks' (by omega)
          (by omega) (Nat.le_succ_of_le hcalls')
      · rw [if_neg hblank, if_neg hblank]
        simp only [afterLine]
        exact congrArg (List.cons _) (hnext _ _)

/-- **A full pass over newline-terminated bytes**, with a round for every byte and
a call for every line. -/
lemma fullPass_join {rounds calls : Nat} (lines : List (List UInt8))
    (hlines : ∀ line ∈ lines, NEWLINE ∉ line) (hread : Reading reader chunks)
    (hchunks : chunks.flatten = Lines.join NEWLINE lines)
    (hrounds : (Lines.join NEWLINE lines).length < rounds) (hcalls : lines.length < calls) :
    (fullPass rounds calls reader).map FramedRecord.entry =
      fullRecords reader.maxRecordBytes reader.nextIndex lines := by
  obtain ⟨calls, rfl⟩ := Nat.exists_eq_add_one_of_ne_zero (Nat.ne_of_gt (Nat.zero_lt_of_lt hcalls))
  rw [fullPass_succ, nextRecord_eq hread]
  exact passFrom_scan lines hlines (reading_record hread [] reader.nextIndex) rfl hchunks hrounds
    hrounds (Nat.le_of_lt_succ hcalls)

end Pass

end BoundedJsonlReader

end Antiburn
