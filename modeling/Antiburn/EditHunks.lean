/-
Hunks of patch text.

`editHunks` is one pass over the lines of a text.  Inside a hunk whose `@@` line
states its counts, a line counts by its first character until both counts are
used up; only then can `--- ` open another file.
-/
import Antiburn.Checkpoint
import Antiburn.FullFraming

namespace Antiburn

/-! ### The scanner -/

structure ByteRange where
  start : Nat
  stop : Nat
  deriving DecidableEq

inductive EditLineKind where
  | added | removed | unchanged | metadata
  deriving DecidableEq

structure EditLine where
  range : ByteRange
  kind : EditLineKind
  deriving DecidableEq

structure EditHunk where
  range : ByteRange
  fileHeader : Option ByteRange
  lines : List EditLine
  deriving DecidableEq

/-- `str::split_inclusive('\n')`. -/
def splitLines : List Char → List (List Char)
  | [] => []
  | c :: rest =>
    if c = '\n' then [c] :: splitLines rest
    else
      match splitLines rest with
      | [] => [[c]]
      | line :: lines => (c :: line) :: lines

/-- `str::starts_with`. -/
def startsLine (head : String) (line : List Char) : Bool := head.toList.isPrefixOf line

/-- `str::parse::<usize>`. -/
def parseUsize (text : List Char) : Option Nat :=
  let digits := if text.head? = some '+' then text.tail else text
  if digits.isEmpty || !digits.all Char.isDigit then none
  else if Number.digitsValue digits ≤ USIZE_MAX then some (Number.digitsValue digits)
  else none

/-- `SplitWhitespace::next`, with the rest of the text. -/
def nextWord (text : List Char) : Option (List Char × List Char) :=
  let text := text.dropWhile isWhiteSpace
  if text.isEmpty then none
  else some (text.takeWhile (!isWhiteSpace ·), text.dropWhile (!isWhiteSpace ·))

/-- The line count of one side of a hunk, the text behind its sign. -/
def rangeCount (range : List Char) : Option Nat := do
  let (start, count) :=
    match range.dropWhile (· != ',') with
    | [] => (range, ['1'])
    | _ :: count => (range.takeWhile (· != ','), count)
  let _ ← parseUsize start
  parseUsize count

/-- The text behind its first character, when that is the given one. -/
def stripChar (c : Char) : List Char → Option (List Char)
  | [] => none
  | head :: rest => if head = c then some rest else none

def unifiedLineCounts (header : List Char) : Option (Nat × Nat) := do
  let parts ← if startsLine "@@ " header then some (header.drop 3) else none
  let (old, parts) ← nextWord parts
  let old ← stripChar '-' old
  let (new, parts) ← nextWord parts
  let new ← stripChar '+' new
  let (last, _) ← nextWord parts
  if last ≠ ['@', '@'] then none
  else some (← rangeCount old, ← rangeCount new)

/-- The variables of the loop in `edit_hunks`. -/
structure HunkScan where
  /-- The newest hunk first. -/
  hunks : List EditHunk := []
  fileHeader : Option ByteRange := none
  offset : Nat := 0
  inHunk : Bool := false
  remaining : Option (Nat × Nat) := none

def opensFile (inHunk : Bool) (line : List Char) : Bool :=
  startsLine "diff --git " line || startsLine "*** Update File: " line ||
    startsLine "*** Add File: " line || startsLine "*** Delete File: " line ||
    (!inHunk && startsLine "--- " line)

def lineKind (inHunk : Bool) (line : List Char) : EditLineKind :=
  if startsLine "+" line && (inHunk || !startsLine "+++ " line) then .added
  else if startsLine "-" line && (inHunk || !startsLine "--- " line) then .removed
  else if startsLine " " line then .unchanged
  else .metadata

def countLine (kind : EditLineKind) (counts : Nat × Nat) : Nat × Nat :=
  match kind with
  | .added => (counts.1, counts.2 - 1)
  | .removed => (counts.1 - 1, counts.2)
  | .unchanged => (counts.1 - 1, counts.2 - 1)
  | .metadata => counts

def appendLine (line : EditLine) : List EditHunk → List EditHunk
  | [] => []
  | hunk :: rest =>
    { hunk with
      range := ⟨hunk.range.start, line.range.stop⟩
      lines := hunk.lines ++ [line] } :: rest

def countsAfter (inHunk : Bool) (remaining : Option (Nat × Nat)) (kind : EditLineKind)
    (line : List Char) : Bool × Option (Nat × Nat) :=
  if startsLine "@@" line then (true, unifiedLineCounts line)
  else
    match remaining with
    | none => (inHunk, none)
    | some counts => (inHunk && countLine kind counts != (0, 0), some (countLine kind counts))

/-- One round of the loop in `edit_hunks`. -/
def HunkScan.step (scan : HunkScan) (line : List Char) : HunkScan :=
  let range : ByteRange := ⟨scan.offset, scan.offset + utf8Length line⟩
  let file := opensFile scan.inHunk line
  let fileHeader := if file then some range else scan.fileHeader
  let inHunk := !file && scan.inHunk
  let remaining := if file then none else scan.remaining
  let hunks :=
    if scan.hunks.isEmpty || file || startsLine "@@" line then ⟨range, fileHeader, []⟩ :: scan.hunks
    else scan.hunks
  let kind := lineKind inHunk line
  let next := countsAfter inHunk remaining kind line
  { hunks := appendLine ⟨range, kind⟩ hunks
    fileHeader
    offset := range.stop
    inHunk := next.1
    remaining := next.2 }

def editHunks (text : List Char) : List EditHunk :=
  ((splitLines text).foldl HunkScan.step {}).hunks.reverse

/-! ### Tiling -/

/-- The ranges follow each other without a gap, none of them empty. -/
def Tiles : Nat → List ByteRange → Nat → Prop
  | start, [], stop => start = stop
  | start, range :: rest, stop =>
    range.start = start ∧ range.start < range.stop ∧ Tiles range.stop rest stop

lemma tiles_append {start stop : Nat} (front back : List ByteRange) :
    Tiles start (front ++ back) stop ↔
      ∃ middle, Tiles start front middle ∧ Tiles middle back stop := by
  induction front generalizing start with
  | nil => simp [Tiles]
  | cons range rest ih =>
    simp only [List.cons_append, Tiles, ih]
    constructor
    · rintro ⟨hstart, hlt, middle, hrest, hback⟩
      exact ⟨middle, ⟨hstart, hlt, hrest⟩, hback⟩
    · rintro ⟨middle, ⟨hstart, hlt, hrest⟩, hback⟩
      exact ⟨hstart, hlt, middle, hrest, hback⟩

lemma splitLines_spec (text : List Char) :
    (splitLines text).flatten = text ∧ ∀ line ∈ splitLines text, line ≠ [] := by
  induction text with
  | nil => exact ⟨rfl, by simp [splitLines]⟩
  | cons c rest ih =>
    obtain ⟨hflat, hne⟩ := ih
    unfold splitLines
    split_ifs
    · exact ⟨by rw [List.flatten_cons, hflat]; rfl, by simpa using hne⟩
    · cases hsplit : splitLines rest with
      | nil =>
        rw [hsplit] at hflat
        exact ⟨by rw [← hflat]; rfl, by simp⟩
      | cons line lines =>
        rw [hsplit] at hflat hne
        exact ⟨by rw [← hflat]; rfl, by simpa using (List.forall_mem_cons.mp hne).2⟩

lemma utf8Length_append (front back : List Char) :
    utf8Length (front ++ back) = utf8Length front + utf8Length back := by
  simp [utf8Length]

lemma utf8Length_pos {text : List Char} (h : text ≠ []) : 0 < utf8Length text := by
  cases text with
  | nil => exact absurd rfl h
  | cons c rest =>
    have := c.utf8Size_pos
    simp only [utf8Length, List.map_cons, List.sum_cons]
    omega

/-- The hunks so far tile the text read, and their lines tile them. -/
structure HunkScan.Tiled (scan : HunkScan) : Prop where
  hunks : Tiles 0 (scan.hunks.reverse.map (·.range)) scan.offset
  lines : ∀ hunk ∈ scan.hunks,
    Tiles hunk.range.start (hunk.lines.map (·.range)) hunk.range.stop

lemma HunkScan.Tiled.step {scan : HunkScan} (h : scan.Tiled) {line : List Char}
    (hline : line ≠ []) : (scan.step line).Tiled := by
  have hpos := utf8Length_pos hline
  obtain ⟨hunks, fileHeader, offset, inHunk, remaining⟩ := scan
  obtain ⟨hhunks, hlines⟩ := h
  dsimp only at hhunks hlines
  unfold HunkScan.step
  dsimp only
  by_cases hpush : (hunks.isEmpty || opensFile inHunk line || startsLine "@@" line) = true
  · rw [if_pos hpush]
    refine ⟨?_, List.forall_mem_cons.mpr ⟨⟨rfl, by simpa using hpos, rfl⟩, hlines⟩⟩
    simp only [appendLine, List.reverse_cons, List.map_append, List.map_cons, List.map_nil]
    exact (tiles_append _ _).mpr ⟨offset, hhunks, rfl, by simpa using hpos, rfl⟩
  · rw [if_neg hpush]
    cases hunks with
    | nil => exact absurd rfl hpush
    | cons hunk rest =>
      obtain ⟨hhunk, hrest⟩ := List.forall_mem_cons.mp hlines
      rw [List.reverse_cons, List.map_append] at hhunks
      obtain ⟨middle, hfront, hstart, hlt, hstop⟩ := (tiles_append _ _).mp hhunks
      -- The newest hunk ends where the line starts.
      have hstop : hunk.range.stop = offset := hstop
      have hlt : hunk.range.start < hunk.range.stop := hlt
      refine ⟨?_, List.forall_mem_cons.mpr ⟨?_, hrest⟩⟩
      · simp only [appendLine, List.reverse_cons, List.map_append, List.map_cons, List.map_nil]
        exact (tiles_append _ _).mpr
          ⟨middle, hfront, hstart, by show hunk.range.start < offset + _; omega, rfl⟩
      · simp only [List.map_append, List.map_cons, List.map_nil]
        rw [hstop] at hhunk
        exact (tiles_append _ _).mpr ⟨offset, hhunk, rfl, by simpa using hpos, rfl⟩

lemma HunkScan.Tiled.run {lines : List (List Char)} {scan : HunkScan} (h : scan.Tiled)
    (hlines : ∀ line ∈ lines, line ≠ []) :
    (lines.foldl HunkScan.step scan).Tiled ∧
      (lines.foldl HunkScan.step scan).offset = scan.offset + utf8Length lines.flatten := by
  induction lines generalizing scan with
  | nil => exact ⟨h, rfl⟩
  | cons line rest ih =>
    obtain ⟨hline, hrest⟩ := List.forall_mem_cons.mp hlines
    obtain ⟨htiled, hoffset⟩ := ih (h.step hline) hrest
    refine ⟨htiled, hoffset.trans ?_⟩
    rw [List.flatten_cons, utf8Length_append, ← Nat.add_assoc]
    rfl

lemma editHunks_tiles (text : List Char) :
    Tiles 0 ((editHunks text).map (·.range)) (utf8Length text) ∧
      ∀ hunk ∈ editHunks text,
        Tiles hunk.range.start (hunk.lines.map (·.range)) hunk.range.stop := by
  obtain ⟨hflat, hne⟩ := splitLines_spec text
  have hstart : HunkScan.Tiled {} := ⟨rfl, by simp⟩
  obtain ⟨htiled, hoffset⟩ := hstart.run hne
  rw [hflat, Nat.zero_add] at hoffset
  unfold editHunks
  refine ⟨by rw [← hoffset]; exact htiled.hunks, ?_⟩
  simpa using htiled.lines

end Antiburn
