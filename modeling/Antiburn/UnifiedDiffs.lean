/-
Well-formed unified diffs, and the hunks that `edit_hunks` reads from them.

A diff is rendered from its files: a `diff --git` line or none, the two name lines,
and hunks whose `@@` line states how many lines of each side follow.  Body text is
arbitrary; it may look like any header.
-/
import Antiburn.EditHunks
import Mathlib

namespace Antiburn

/-! ### Diffs -/

abbrev LineText : Type := { text : List Char // '\n' ∉ text }

def EditLineKind.mark : EditLineKind → Char
  | .added => '+'
  | .removed => '-'
  | .unchanged => ' '
  | .metadata => '\\'

structure BodyLine where
  kind : EditLineKind
  text : LineText

def BodyLine.chars (line : BodyLine) : List Char := line.kind.mark :: (line.text.val ++ ['\n'])

abbrev MarkedLine : Type := List Char × EditLineKind

def sideCounts (body : List BodyLine) : Nat × Nat :=
  (body.countP fun line => line.kind = .removed || line.kind = .unchanged,
    body.countP fun line => line.kind = .added || line.kind = .unchanged)

structure UnifiedHunk where
  oldStart : Nat
  newStart : Nat
  /-- Whether a count of one is left out. -/
  short : Bool
  /-- Text behind the second `@@`. -/
  heading : Option LineText
  body : List BodyLine
  starts_le : oldStart ≤ USIZE_MAX ∧ newStart ≤ USIZE_MAX
  length_le : body.length ≤ USIZE_MAX
  counts_ne : sideCounts body ≠ (0, 0)

structure UnifiedFile where
  git : Option LineText
  oldName : LineText
  newName : LineText
  hunks : List UnifiedHunk

def decimal (n : Nat) : List Char := (toString n).toList

def sideText (short : Bool) (start count : Nat) : List Char :=
  decimal start ++ if short && count == 1 then [] else ',' :: decimal count

namespace UnifiedHunk

def headerText (hunk : UnifiedHunk) : List Char :=
  "@@ ".toList ++ ('-' :: (sideText hunk.short hunk.oldStart (sideCounts hunk.body).1 ++
    ' ' :: '+' :: (sideText hunk.short hunk.newStart (sideCounts hunk.body).2 ++
      ' ' :: '@' :: '@' :: hunk.heading.elim [] fun text => ' ' :: text.val)))

/-- The `@@` line. -/
def header (hunk : UnifiedHunk) : List Char := hunk.headerText ++ ['\n']

def lines (hunk : UnifiedHunk) : List MarkedLine :=
  (hunk.header, .metadata) :: hunk.body.map fun line => (line.chars, line.kind)

end UnifiedHunk

namespace UnifiedFile

def gitLine (text : LineText) : List Char :=
  ['d', 'i', 'f', 'f', ' ', '-', '-', 'g', 'i', 't', ' '] ++ (text.val ++ ['\n'])

def oldLine (file : UnifiedFile) : List Char := "--- ".toList ++ (file.oldName.val ++ ['\n'])

def newLine (file : UnifiedFile) : List Char := "+++ ".toList ++ (file.newName.val ++ ['\n'])

def gitLines (file : UnifiedFile) : List MarkedLine :=
  file.git.toList.map fun text => (gitLine text, .metadata)

def nameLines (file : UnifiedFile) : List MarkedLine :=
  [(file.oldLine, .metadata), (file.newLine, .metadata)]

def lines (file : UnifiedFile) : List MarkedLine :=
  file.gitLines ++ file.nameLines ++ file.hunks.flatMap UnifiedHunk.lines

end UnifiedFile

def linesText (lines : List MarkedLine) : List Char :=
  (lines.map (·.1)).flatten

def diffText (files : List UnifiedFile) : List Char :=
  linesText (files.flatMap UnifiedFile.lines)

/-! ### The hunks of a diff -/

def layout : Nat → List MarkedLine → List EditLine
  | _, [] => []
  | offset, (chars, kind) :: rest =>
    ⟨⟨offset, offset + utf8Length chars⟩, kind⟩ :: layout (offset + utf8Length chars) rest

def hunkAt (fileHeader : ByteRange) (offset : Nat) (lines : List MarkedLine) :
    EditHunk :=
  ⟨⟨offset, offset + utf8Length (linesText lines)⟩, some fileHeader, layout offset lines⟩

/-- The `@@` hunks of a file from an offset on. -/
def bodyHunks (fileHeader : ByteRange) : Nat → List UnifiedHunk → List EditHunk
  | _, [] => []
  | offset, hunk :: rest =>
    hunkAt fileHeader offset hunk.lines ::
      bodyHunks fileHeader (offset + utf8Length (linesText hunk.lines)) rest

/-- The hunks of a file from an offset on.  The `diff --git` line stands in a hunk of its
own; the name lines and all hunks behind them have the `---` line as their header. -/
def UnifiedFile.edits (file : UnifiedFile) (offset : Nat) : List EditHunk :=
  let named := offset + utf8Length (linesText file.gitLines)
  let fileHeader : ByteRange := ⟨named, named + utf8Length file.oldLine⟩
  (file.git.toList.map fun text => hunkAt ⟨offset, named⟩ offset [(gitLine text, .metadata)]) ++
    hunkAt fileHeader named file.nameLines ::
      bodyHunks fileHeader (named + utf8Length (linesText file.nameLines)) file.hunks

def diffEdits : Nat → List UnifiedFile → List EditHunk
  | _, [] => []
  | offset, file :: rest =>
    file.edits offset ++ diffEdits (offset + utf8Length (linesText file.lines)) rest

/-! ### Reading the counts -/

lemma decimal_spec (n : Nat) :
    (decimal n).all Char.isDigit = true ∧ Number.digitsValue (decimal n) = n ∧ decimal n ≠ [] := by
  have h := JsonCodec.asU64_ofNat n
  rw [Number.asU64, Number.ofNat] at h
  obtain ⟨hdigits, hvalue⟩ := Option.ite_none_right_eq_some.mp h
  refine ⟨hdigits, Option.some.inj hvalue, fun hnil => ?_⟩
  exact Nat.toDigits_ne_nil (Nat.toList_repr.symm.trans hnil)

lemma parseUsize_decimal {n : Nat} (h : n ≤ USIZE_MAX) : parseUsize (decimal n) = some n := by
  obtain ⟨hdigits, hvalue, hne⟩ := decimal_spec n
  have hplus : (decimal n).head? ≠ some '+' := by
    intro hhead
    have := List.all_eq_true.mp hdigits '+' (List.mem_of_mem_head? hhead)
    exact absurd this (by decide)
  unfold parseUsize
  rw [if_neg hplus]
  dsimp only
  rw [hdigits, hvalue, if_pos h, if_neg (by simpa using hne)]

lemma rangeCount_sideText (short : Bool) {start count : Nat} (hstart : start ≤ USIZE_MAX)
    (hcount : count ≤ USIZE_MAX) : rangeCount (sideText short start count) = some count := by
  have hdigits : ∀ c ∈ decimal start, (c != ',') = true := by
    intro c hc
    have := List.all_eq_true.mp (decimal_spec start).1 c hc
    rw [bne_iff_ne]
    rintro rfl
    exact absurd this (by decide)
  unfold rangeCount sideText
  split_ifs with hshort
  · have hone : count = 1 := (by simpa using hshort : short = true ∧ count = 1).2
    rw [List.append_nil, List.dropWhile_eq_nil_iff.mpr hdigits, hone]
    dsimp only
    rw [parseUsize_decimal hstart]
    rfl
  · rw [List.dropWhile_append_of_pos hdigits, List.takeWhile_append_of_pos hdigits]
    simp [parseUsize_decimal hstart, parseUsize_decimal hcount]

lemma nextWord_word {word : List Char} (hne : word ≠ [])
    (hword : ∀ c ∈ word, isWhiteSpace c = false) {c : Char} (hc : isWhiteSpace c = true)
    (rest : List Char) : nextWord (word ++ c :: rest) = some (word, c :: rest) := by
  have hhead : (word ++ c :: rest).dropWhile isWhiteSpace = word ++ c :: rest := by
    cases word with
    | nil => exact absurd rfl hne
    | cons head tail => exact List.dropWhile_cons_of_neg (by simp [hword head List.mem_cons_self])
  have hall : ∀ d ∈ word, (!isWhiteSpace d) = true := fun d hd => by simp [hword d hd]
  unfold nextWord
  dsimp only
  rw [hhead, List.takeWhile_append_of_pos hall, List.dropWhile_append_of_pos hall]
  simp [hc, hne]

lemma nextWord_space (rest : List Char) : nextWord (' ' :: rest) = nextWord rest := by
  unfold nextWord
  rw [List.dropWhile_cons_of_pos (by decide)]

lemma isWhiteSpace_sideText (short : Bool) (start count : Nat) :
    ∀ c ∈ sideText short start count, isWhiteSpace c = false := by
  have hdigit : ∀ n, ∀ c ∈ decimal n, isWhiteSpace c = false := by
    intro n c hc
    have hc := List.all_eq_true.mp (decimal_spec n).1 c hc
    simp only [Char.isDigit, Bool.and_eq_true, decide_eq_true_eq, ge_iff_le,
      UInt32.le_iff_toNat_le] at hc
    have hlow : 48 ≤ c.toNat := hc.1
    have hhigh : c.toNat ≤ 57 := hc.2
    simp only [isWhiteSpace, Bool.or_eq_false_iff, Bool.and_eq_false_iff, decide_eq_false_iff_not,
      beq_eq_false_iff_ne, ne_eq]
    omega
  intro c hc
  rcases List.mem_append.mp hc with hc | hc
  · exact hdigit start c hc
  · split_ifs at hc
    · exact absurd hc List.not_mem_nil
    · rcases List.mem_cons.mp hc with rfl | hc
      · decide
      · exact hdigit count c hc

lemma startsLine_append (head : String) (rest : List Char) :
    startsLine head (head.toList ++ rest) = true := by
  simp [startsLine]

lemma unifiedLineCounts_header (hunk : UnifiedHunk) :
    unifiedLineCounts hunk.header = some (sideCounts hunk.body) := by
  have hold : (sideCounts hunk.body).1 ≤ USIZE_MAX := List.countP_le_length.trans hunk.length_le
  have hnew : (sideCounts hunk.body).2 ≤ USIZE_MAX := List.countP_le_length.trans hunk.length_le
  have hends : ∃ c rest, isWhiteSpace c = true ∧
      (hunk.heading.elim [] fun text => ' ' :: text.val) ++ ['\n'] = c :: rest := by
    cases hunk.heading with
    | none => exact ⟨'\n', [], by decide, rfl⟩
    | some text => exact ⟨' ', text.val ++ ['\n'], by decide, rfl⟩
  obtain ⟨c, rest, hc, hrest⟩ := hends
  have hnext : ∀ sign, isWhiteSpace sign = false → ∀ start count rest,
      nextWord (sign :: (sideText hunk.short start count ++ ' ' :: rest)) =
        some (sign :: sideText hunk.short start count, ' ' :: rest) := by
    intro sign hsign start count rest
    exact @nextWord_word (sign :: sideText hunk.short start count) (by simp)
      (List.forall_mem_cons.mpr ⟨hsign, isWhiteSpace_sideText _ _ _⟩) ' ' (by decide) rest
  have hlast : nextWord ('@' :: '@' :: c :: rest) = some (['@', '@'], c :: rest) :=
    @nextWord_word ['@', '@'] (by simp) (fun d hd => by
      obtain rfl : d = '@' := by simpa using hd
      decide) c hc rest
  unfold unifiedLineCounts UnifiedHunk.header UnifiedHunk.headerText
  simp only [List.append_assoc, List.cons_append, hrest, startsLine_append]
  simp [nextWord_space, hnext '-' (by decide), hnext '+' (by decide), hlast, stripChar,
    rangeCount_sideText _ hunk.starts_le.1 hold, rangeCount_sideText _ hunk.starts_le.2 hnew]

/-! ### Scanning -/

lemma splitLines_line {text : List Char} (h : '\n' ∉ text) (rest : List Char) :
    splitLines (text ++ ['\n'] ++ rest) = (text ++ ['\n']) :: splitLines rest := by
  induction text with
  | nil => rfl
  | cons c text ih =>
    obtain ⟨hc, htext⟩ := not_or.mp (mt List.mem_cons.mpr h)
    show splitLines (c :: (text ++ ['\n'] ++ rest)) = _
    rw [splitLines, if_neg (Ne.symm hc), ih htext]
    rfl

lemma bodyLine_spec (line : BodyLine) {inHunk : Bool}
    (h : line.kind ≠ .metadata → inHunk = true) :
    opensFile inHunk line.chars = false ∧ startsLine "@@" line.chars = false ∧
      lineKind inHunk line.chars = line.kind := by
  obtain ⟨kind, text⟩ := line
  cases kind with
  | metadata => simp [opensFile, lineKind, startsLine, List.isPrefixOf, BodyLine.chars, EditLineKind.mark]
  | added | removed | unchanged =>
    obtain rfl := h (by simp)
    simp [opensFile, lineKind, startsLine, List.isPrefixOf, BodyLine.chars, EditLineKind.mark]

lemma countLine_sideCounts (line : BodyLine) (body : List BodyLine) :
    countLine line.kind (sideCounts (line :: body)) = sideCounts body := by
  obtain ⟨kind, text⟩ := line
  cases kind <;> simp [countLine, sideCounts]

lemma linesText_cons (line : MarkedLine) (rest : List MarkedLine) :
    linesText (line :: rest) = line.1 ++ linesText rest := rfl

lemma linesText_append (front back : List MarkedLine) :
    linesText (front ++ back) = linesText front ++ linesText back := by
  simp [linesText]

section Scan

variable (hunks : List EditHunk) (fileHeader : Option ByteRange) (offset : Nat)
  (remaining : Option (Nat × Nat))

lemma step_inside {inHunk : Bool} {line : List Char} (hopens : opensFile inHunk line = false)
    (hat : startsLine "@@" line = false) (hunk : EditHunk) :
    HunkScan.step ⟨hunk :: hunks, fileHeader, offset, inHunk, remaining⟩ line =
      let range : ByteRange := ⟨offset, offset + utf8Length line⟩
      let next := countsAfter inHunk remaining (lineKind inHunk line) line
      ⟨appendLine ⟨range, lineKind inHunk line⟩ (hunk :: hunks), fileHeader, range.stop, next.1,
        next.2⟩ := by
  unfold HunkScan.step
  rw [hopens, hat]
  rfl

lemma step_opens {line : List Char} (hopens : opensFile false line = true)
    (hat : startsLine "@@" line = false) (hkind : lineKind false line = .metadata) :
    HunkScan.step ⟨hunks, fileHeader, offset, false, remaining⟩ line =
      let range : ByteRange := ⟨offset, offset + utf8Length line⟩
      ⟨⟨range, some range, [⟨range, .metadata⟩]⟩ :: hunks, some range, range.stop, false, none⟩ := by
  unfold HunkScan.step countsAfter
  dsimp only
  rw [hopens, hat]
  simp [hkind, appendLine]

lemma step_header (hunk : UnifiedHunk) :
    HunkScan.step ⟨hunks, fileHeader, offset, false, remaining⟩ hunk.header =
      let range : ByteRange := ⟨offset, offset + utf8Length hunk.header⟩
      ⟨⟨range, fileHeader, [⟨range, .metadata⟩]⟩ :: hunks, fileHeader, range.stop,
        sideCounts hunk.body != (0, 0), some (sideCounts hunk.body)⟩ := by
  have hcounts := unifiedLineCounts_header hunk
  have hne : (sideCounts hunk.body != (0, 0)) = true := bne_iff_ne.mpr hunk.counts_ne
  have hfacts : opensFile false hunk.header = false ∧ startsLine "@@" hunk.header = true ∧
      lineKind false hunk.header = .metadata := by
    simp [opensFile, lineKind, startsLine, List.isPrefixOf, UnifiedHunk.header, UnifiedHunk.headerText]
  obtain ⟨hopens, hat, hkind⟩ := hfacts
  unfold HunkScan.step countsAfter
  dsimp only
  rw [hopens, hat]
  simp [hkind, hcounts, hne, appendLine]

lemma scan_body (body : List BodyLine) (start : Nat) (header : Option ByteRange)
    (lines : List EditLine) :
    (body.map BodyLine.chars).foldl HunkScan.step
        ⟨⟨⟨start, offset⟩, header, lines⟩ :: hunks, fileHeader, offset,
          sideCounts body != (0, 0), some (sideCounts body)⟩ =
      let marked := body.map fun line => (line.chars, line.kind)
      ⟨⟨⟨start, offset + utf8Length (linesText marked)⟩, header, lines ++ layout offset marked⟩ ::
        hunks, fileHeader, offset + utf8Length (linesText marked), false, some (0, 0)⟩ := by
  induction body generalizing offset lines with
  | nil => simp [sideCounts, layout, linesText, utf8Length]
  | cons line body ih =>
    have hkind : line.kind ≠ .metadata → (sideCounts (line :: body) != (0, 0)) = true := by
      obtain ⟨kind, text⟩ := line
      cases kind <;> simp [sideCounts]
    obtain ⟨hopens, hat, hline⟩ := bodyLine_spec line hkind
    have hstep : HunkScan.step ⟨⟨⟨start, offset⟩, header, lines⟩ :: hunks, fileHeader, offset,
        sideCounts (line :: body) != (0, 0), some (sideCounts (line :: body))⟩ line.chars =
        ⟨⟨⟨start, offset + utf8Length line.chars⟩, header,
          lines ++ [⟨⟨offset, offset + utf8Length line.chars⟩, line.kind⟩]⟩ :: hunks, fileHeader,
          offset + utf8Length line.chars, sideCounts body != (0, 0), some (sideCounts body)⟩ := by
      rw [step_inside _ _ _ _ hopens hat, hline]
      have hmore : (sideCounts (line :: body) != (0, 0) && sideCounts body != (0, 0)) =
          (sideCounts body != (0, 0)) := by
        rw [Bool.and_eq_right_iff_imp, bne_iff_ne, bne_iff_ne]
        simp only [sideCounts, List.countP_cons, ne_eq, Prod.mk.injEq, not_and_or]
        omega
      simp [countsAfter, hat, countLine_sideCounts, appendLine, hmore]
    rw [List.map_cons, List.foldl_cons, hstep, ih]
    simp [layout, linesText_cons, utf8Length_append, Nat.add_assoc]

lemma scan_hunk (hunk : UnifiedHunk) (fileHeader : ByteRange) :
    (hunk.lines.map (·.1)).foldl HunkScan.step
        ⟨hunks, some fileHeader, offset, false, remaining⟩ =
      ⟨hunkAt fileHeader offset hunk.lines :: hunks, some fileHeader,
        offset + utf8Length (linesText hunk.lines), false, some (0, 0)⟩ := by
  have hmap : hunk.lines.map (·.1) = hunk.header :: hunk.body.map BodyLine.chars := by
    simp [UnifiedHunk.lines]
  rw [hmap, List.foldl_cons, step_header]
  dsimp only
  rw [scan_body]
  simp [hunkAt, UnifiedHunk.lines, layout, linesText_cons, utf8Length_append, Nat.add_assoc]

lemma scan_hunks (list : List UnifiedHunk) (fileHeader : ByteRange) :
    ∃ remaining', ((list.flatMap UnifiedHunk.lines).map (·.1)).foldl HunkScan.step
        ⟨hunks, some fileHeader, offset, false, remaining⟩ =
      ⟨(bodyHunks fileHeader offset list).reverse ++ hunks, some fileHeader,
        offset + utf8Length (linesText (list.flatMap UnifiedHunk.lines)), false, remaining'⟩ := by
  induction list generalizing hunks offset remaining with
  | nil => exact ⟨remaining, rfl⟩
  | cons hunk rest ih =>
    obtain ⟨remaining', h⟩ := ih (hunkAt fileHeader offset hunk.lines :: hunks)
      (offset + utf8Length (linesText hunk.lines)) (some (0, 0))
    refine ⟨remaining', ?_⟩
    rw [List.flatMap_cons, List.map_append, List.foldl_append, scan_hunk, h]
    simp [bodyHunks, linesText_append, utf8Length_append, Nat.add_assoc]

lemma scan_git (text : LineText) :
    HunkScan.step ⟨hunks, fileHeader, offset, false, remaining⟩ (UnifiedFile.gitLine text) =
      let range : ByteRange := ⟨offset, offset + utf8Length (UnifiedFile.gitLine text)⟩
      ⟨hunkAt range offset [(UnifiedFile.gitLine text, .metadata)] :: hunks, some range,
        range.stop, false, none⟩ := by
  have hgit : opensFile false (UnifiedFile.gitLine text) = true ∧
      startsLine "@@" (UnifiedFile.gitLine text) = false ∧
      lineKind false (UnifiedFile.gitLine text) = .metadata := by
    simp [opensFile, lineKind, startsLine, List.isPrefixOf, UnifiedFile.gitLine]
  rw [step_opens _ _ _ _ hgit.1 hgit.2.1 hgit.2.2]
  simp [hunkAt, layout, linesText]

lemma scan_names (file : UnifiedFile) :
    (file.nameLines.map (·.1)).foldl HunkScan.step
        ⟨hunks, fileHeader, offset, false, remaining⟩ =
      let range : ByteRange := ⟨offset, offset + utf8Length file.oldLine⟩
      ⟨hunkAt range offset file.nameLines :: hunks, some range,
        offset + utf8Length (linesText file.nameLines), false, none⟩ := by
  have hnew : opensFile false file.newLine = false ∧ startsLine "@@" file.newLine = false ∧
      lineKind false file.newLine = .metadata := by
    simp [opensFile, lineKind, startsLine, List.isPrefixOf, UnifiedFile.newLine]
  have hold : opensFile false file.oldLine = true ∧ startsLine "@@" file.oldLine = false ∧
      lineKind false file.oldLine = .metadata := by
    simp [opensFile, lineKind, startsLine, List.isPrefixOf, UnifiedFile.oldLine]
  show HunkScan.step (HunkScan.step _ file.oldLine) file.newLine = _
  rw [step_opens _ _ _ _ hold.1 hold.2.1 hold.2.2]
  dsimp only
  rw [step_inside _ _ _ _ hnew.1 hnew.2.1]
  simp [hnew, countsAfter, appendLine, hunkAt, UnifiedFile.nameLines, layout, linesText,
    utf8Length_append, Nat.add_assoc]

lemma scan_file (file : UnifiedFile) :
    ∃ fileHeader' remaining', (file.lines.map (·.1)).foldl HunkScan.step
        ⟨hunks, fileHeader, offset, false, remaining⟩ =
      ⟨(file.edits offset).reverse ++ hunks, fileHeader',
        offset + utf8Length (linesText file.lines), false, remaining'⟩ := by
  -- What stands behind the `diff --git` line, if there is one.
  have hnamed : ∀ hunks fileHeader offset remaining, ∃ remaining',
      ((file.nameLines ++ file.hunks.flatMap UnifiedHunk.lines).map (·.1)).foldl HunkScan.step
          ⟨hunks, fileHeader, offset, false, remaining⟩ =
        let range : ByteRange := ⟨offset, offset + utf8Length file.oldLine⟩
        ⟨(hunkAt range offset file.nameLines :: bodyHunks range
            (offset + utf8Length (linesText file.nameLines)) file.hunks).reverse ++ hunks,
          some range, offset + utf8Length (linesText (file.nameLines ++
            file.hunks.flatMap UnifiedHunk.lines)), false, remaining'⟩ := by
    intro hunks fileHeader offset remaining
    rw [List.map_append, List.foldl_append, scan_names]
    obtain ⟨remaining', h⟩ := scan_hunks
      (hunkAt ⟨offset, offset + utf8Length file.oldLine⟩ offset file.nameLines :: hunks)
      (offset + utf8Length (linesText file.nameLines)) none file.hunks
      ⟨offset, offset + utf8Length file.oldLine⟩
    refine ⟨remaining', h.trans ?_⟩
    simp [linesText_append, utf8Length_append, Nat.add_assoc]
  have hlines : file.lines = file.gitLines ++ (file.nameLines ++
      file.hunks.flatMap UnifiedHunk.lines) := List.append_assoc _ _ _
  rw [hlines, List.map_append, List.foldl_append, linesText_append, utf8Length_append]
  unfold UnifiedFile.edits UnifiedFile.gitLines
  cases file.git with
  | none =>
    obtain ⟨remaining', h⟩ := hnamed hunks fileHeader offset remaining
    exact ⟨_, remaining', by simpa [linesText, utf8Length] using h⟩
  | some text =>
    let range : ByteRange := ⟨offset, offset + utf8Length (UnifiedFile.gitLine text)⟩
    obtain ⟨remaining', h⟩ := hnamed
      (hunkAt range offset [(UnifiedFile.gitLine text, .metadata)] :: hunks) (some range)
      range.stop none
    refine ⟨some ⟨range.stop, range.stop + utf8Length file.oldLine⟩, remaining', ?_⟩
    simp only [Option.toList_some, List.map_cons, List.map_nil, List.foldl_cons, List.foldl_nil,
      scan_git, linesText_cons]
    refine h.trans ?_
    simp [range, linesText, Nat.add_assoc]

lemma scan_files (files : List UnifiedFile) :
    (((files.flatMap UnifiedFile.lines).map (·.1)).foldl HunkScan.step
        ⟨hunks, fileHeader, offset, false, remaining⟩).hunks =
      (diffEdits offset files).reverse ++ hunks := by
  induction files generalizing hunks fileHeader offset remaining with
  | nil => rfl
  | cons file rest ih =>
    obtain ⟨fileHeader', remaining', h⟩ := scan_file hunks fileHeader offset remaining file
    rw [List.flatMap_cons, List.map_append, List.foldl_append, h, ih]
    simp [diffEdits]

end Scan

/-! ### Lines of a diff -/

lemma terminated_lines (files : List UnifiedFile) :
    ∀ line ∈ files.flatMap UnifiedFile.lines, ∃ text : LineText, line.1 = text.val ++ ['\n'] := by
  have hside : ∀ short start count, '\n' ∉ sideText short start count := fun short start count h =>
    absurd (isWhiteSpace_sideText short start count _ h) (by decide)
  intro line hline
  obtain ⟨file, -, hline⟩ := List.mem_flatMap.mp hline
  rcases List.mem_append.mp hline with hline | hline
  · rcases List.mem_append.mp hline with hline | hline
    · obtain ⟨text, -, rfl⟩ := List.mem_map.mp hline
      exact ⟨⟨['d', 'i', 'f', 'f', ' ', '-', '-', 'g', 'i', 't', ' '] ++ text.val,
        by simpa using text.2⟩, rfl⟩
    · rcases List.mem_pair.mp hline with rfl | rfl
      · exact ⟨⟨"--- ".toList ++ file.oldName.val, by simpa using file.oldName.2⟩,
          by simp [UnifiedFile.oldLine]⟩
      · exact ⟨⟨"+++ ".toList ++ file.newName.val, by simpa using file.newName.2⟩,
          by simp [UnifiedFile.newLine]⟩
  · obtain ⟨hunk, -, hline⟩ := List.mem_flatMap.mp hline
    rcases List.mem_cons.mp hline with rfl | hline
    · refine ⟨⟨hunk.headerText, ?_⟩, rfl⟩
      have hheading : '\n' ∉ hunk.heading.elim [] fun text => ' ' :: text.val := by
        cases hunk.heading with
        | none => exact List.not_mem_nil
        | some text => simpa using text.2
      simp [UnifiedHunk.headerText, hside, hheading]
    · obtain ⟨body, -, rfl⟩ := List.mem_map.mp hline
      refine ⟨⟨body.kind.mark :: body.text.val, ?_⟩, rfl⟩
      rw [List.mem_cons, not_or]
      exact ⟨by cases body.kind <;> decide, body.text.2⟩

lemma splitLines_linesText {lines : List MarkedLine}
    (h : ∀ line ∈ lines, ∃ text : LineText, line.1 = text.val ++ ['\n']) :
    splitLines (linesText lines) = lines.map (·.1) := by
  induction lines with
  | nil => rfl
  | cons line rest ih =>
    obtain ⟨⟨text, hline⟩, hrest⟩ := List.forall_mem_cons.mp h
    rw [linesText_cons, hline, splitLines_line text.2, ih hrest, List.map_cons, hline]

lemma editHunks_diffText (files : List UnifiedFile) :
    editHunks (diffText files) = diffEdits 0 files := by
  rw [editHunks, diffText, splitLines_linesText (terminated_lines files), scan_files,
    List.append_nil, List.reverse_reverse]

/-- **Hunk splitting is lossless and reads well-formed diffs.**  The hunks of any text tile
it and their lines tile them.  Those of a rendered diff are the rendered ones: body lines
are classified by their first character, header lines are metadata, and the header of a
hunk is the line that opened its file last. -/
theorem editHunks_lossless_and_reads_diffs (text : List Char) (files : List UnifiedFile) :
    (Tiles 0 ((editHunks text).map (·.range)) (utf8Length text) ∧
      ∀ hunk ∈ editHunks text,
        Tiles hunk.range.start (hunk.lines.map (·.range)) hunk.range.stop) ∧
      editHunks (diffText files) = diffEdits 0 files :=
  ⟨editHunks_tiles text, editHunks_diffText files⟩

end Antiburn
