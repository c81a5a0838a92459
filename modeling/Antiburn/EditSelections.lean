/-
Path and content selections of an edit call.

A patch is read line by line, whatever stands around a line.  Body lines of its
hunks begin with a mark, and two marks look like headers: what is misread is a
body line that begins with `--- ` or `+++ `.
-/
import Antiburn.CheckpointText
import Antiburn.UnifiedDiffs
import Mathlib

namespace Antiburn

/-! ### Selections -/

def MAX_CONTENT_PART_BYTES : Nat := 256 * 1024

/-- The loop of `tool_argument_shape_is_bounded` over its stack. -/
def shapeIsBounded : Nat → List (Json × Nat) → Bool
  | _, [] => true
  | 0, _ => false
  | visits + 1, (value, depth) :: pending =>
    decide (depth ≤ 16) &&
      match value with
      | .array items =>
        decide (items.length ≤ 256) &&
          shapeIsBounded visits (items.reverse.map (·, depth + 1) ++ pending)
      | .object fields =>
        decide (fields.length ≤ 256) &&
          shapeIsBounded visits (fields.reverse.map (·.2, depth + 1) ++ pending)
      | _ => shapeIsBounded visits pending

def toolArgumentShapeIsBounded (value : Json) : Bool := shapeIsBounded 4096 [(value, 0)]

section

variable [Platform]

def parseToolInput (text : String) : Json :=
  if text.utf8ByteSize > MAX_CONTENT_PART_BYTES then .null
  else
    let value := (Platform.readJson text).value.getD (.string text)
    if toolArgumentShapeIsBounded value then value else .null

/-- The rounds of the loop in `unwrap_arguments`. -/
def unwrapRounds : Nat → Json → Json
  | 0, value => value
  | rounds + 1, value =>
    match ["arguments", "args", "params", "input"].findSome? (value.child <| .key ·), value with
    | some nested, _ => unwrapRounds rounds nested
    | none, .string text =>
      match (Platform.readJson text).value with
      | some decoded =>
        if toolArgumentShapeIsBounded decoded then unwrapRounds rounds decoded else .null
      | none => value
    | none, _ => value

def unwrapArguments (value : Json) : Json := unwrapRounds 4 value

end

/-- `sort` and `dedup`. -/
def sortedTexts (values : List String) : List String := values.toFinset.sort

def nonemptyText (text : String) : Option String := if text = "" then none else some text

def textOf : Json → Option String
  | .string text => some text
  | _ => none

def valueStrings (value : Json) (keys : List String) : List String :=
  sortedTexts <| keys.flatMap fun key =>
    match value.child (.key key) with
    | some (.string text) => (nonemptyText text).toList
    | some (.array items) => items.flatMap fun item =>
      (match textOf item with
      | some path => [path]
      | none => ["file_path", "filePath", "path", "target_file", "old_path", "oldPath", "new_path",
          "newPath"].filterMap fun key =>
            (item.child (.key key)).bind textOf).filterMap nonemptyText
    | _ => []

def patchText (value : Json) : Option String :=
  (textOf value).or <| ["patchText", "patch", "input"].findSome? fun key =>
    (value.child (.key key)).bind textOf

/-- The line without a carriage return at its end. -/
def stripReturn (line : List Char) : List Char :=
  if line.getLast? = some '\r' then line.dropLast else line

/-- `str::lines`. -/
def textLines (text : List Char) : List (List Char) :=
  (splitLines text).map fun line =>
    if line.getLast? = some '\n' then stripReturn line.dropLast else line

def stripHead (head : String) (line : List Char) : Option String :=
  if startsLine head line then some (String.ofList (line.drop head.toList.length)) else none

/-- The path that a line of a patch names. -/
def patchPath (line : List Char) : Option String :=
  (["*** Update File: ", "*** Add File: ", "*** Delete File: ", "*** Move to: ", "+++ b/",
    "--- a/"].findSome? (stripHead · line)).filter fun path => path != "" && path != "/dev/null"

inductive EditPathOperation where
  | add (path : String)
  | update (path : String)
  | delete (path : String)
  | move (source target : String)

def EditPathOperation.json : EditPathOperation → Json
  | .add path => .object <| Object.ofFields [("operation", .string "add"), ("path", .string path)]
  | .update path =>
    .object <| Object.ofFields [("operation", .string "update"), ("path", .string path)]
  | .delete path =>
    .object <| Object.ofFields [("operation", .string "delete"), ("path", .string path)]
  | .move source target => .object <| Object.ofFields
    [("operation", .string "move"), ("from", .string source), ("to", .string target)]

def operationPath (head : String) (line : List Char) : Option String :=
  (stripHead head line).filter fun path => path != "" && decide (path.utf8ByteSize ≤ 4096)

/-- One round of the loop in `apply_patch_path_operations`. -/
def operationStep (operations : List EditPathOperation) (line : List Char) :
    List EditPathOperation :=
  if operations.length = 256 then operations
  else
    match operationPath "*** Add File: " line, operationPath "*** Update File: " line,
      operationPath "*** Delete File: " line, operationPath "*** Move to: " line,
      operations.getLast? with
    | some path, _, _, _, _ => operations ++ [.add path]
    | none, some path, _, _, _ => operations ++ [.update path]
    | none, none, some path, _, _ => operations ++ [.delete path]
    | none, none, none, some target, some (.update source) =>
      operations.dropLast ++ [.move source target]
    | _, _, _, _, _ => operations

def applyPatchPathOperations (text : String) : List EditPathOperation :=
  (textLines text.toList).foldl operationStep []

def PATH_KEYS : List String :=
  ["file_path", "filePath", "filepath", "path", "paths", "files", "edits", "old_path", "new_path",
    "oldPath", "newPath", "target_file", "from", "to"]

/-- The fields of a path selection. -/
def pathFields (value : Json) (paths : List String) : Object :=
  let operations := (patchText value).elim [] applyPatchPathOperations
  let fields : Object := [("paths", .array (paths.map .string))]
  let fields :=
    if operations.isEmpty then fields
    else fields.insert "operations" (.array (operations.map EditPathOperation.json))
  ["cwd", "workdir"].foldl (fun fields key =>
    match (value.child (.key key)).bind textOf with
    | some context => fields.insert key (.string context)
    | none => fields) fields

def selectedPaths (value : Json) : List String :=
  let paths := valueStrings value PATH_KEYS
  if paths.isEmpty then
    sortedTexts ((patchText value).elim [] fun patch =>
      (textLines patch.toList).filterMap patchPath)
  else paths

def selectedPathInput [Platform] (text : String) : Option String :=
  let value := unwrapArguments (parseToolInput text)
  if (selectedPaths value).isEmpty then none
  else some (Json.object (pathFields value (selectedPaths value))).render

def EDIT_TEXT_KEYS : List String :=
  ["old_string", "new_string", "oldString", "newString", "oldText", "newText", "content", "text"]

def selectEditOperation (operation : Json) : Option Json :=
  let selected : Object := EDIT_TEXT_KEYS.foldl (fun fields key =>
    match (operation.child (.key key)).bind textOf with
    | some text => fields.insert key (.string text)
    | none => fields) []
  if selected.isEmpty then none else some (.object selected)

def selectEditOperations : Json → Option Json
  | .array operations => (operations.mapM selectEditOperation).map .array
  | _ => none

/-- Whether a line of a patch is content. -/
def isContent (line : List Char) : Bool :=
  !(["*** Update File: ", "*** Add File: ", "*** Delete File: ", "*** Move to: ", "+++ ",
    "--- "].any (startsLine · line))

def patchContent (patch : String) : String :=
  String.ofList (List.intercalate ['\n'] ((textLines patch.toList).filter isContent))

/-- The fields of a content selection. -/
def contentFields (value : Json) : Object :=
  let fields := (EDIT_TEXT_KEYS ++ ["edits"]).filterMap fun key =>
    ((value.child (.key key)).bind fun field =>
      if key = "edits" then selectEditOperations field else (textOf field).map .string).map (key, ·)
  if fields.isEmpty then
    match (patchText value).bind fun patch => nonemptyText (patchContent patch) with
    | some content => [("patch_content", .string content)]
    | none => []
  else fields

/-- The fields of the path selection, read back from its text. -/
def selectedPathFields [Platform] (text : String) : Option Object :=
  (selectedPathInput text).bind fun paths =>
    match (Platform.readJson paths).value with
    | some (.object fields) => some (Object.extend [] fields)
    | _ => none

def selectedEditInput [Platform] (text : String) (includePath includeContent : Bool) :
    Option String :=
  if !includePath && !includeContent then none
  else
    (if includePath then selectedPathFields text else some []).bind fun selected =>
      let selected := if includeContent
        then selected.extend (contentFields (unwrapArguments (parseToolInput text))) else selected
      if selected.isEmpty then none else some (Json.object selected).render

/-! ### Patches -/

/-- What stands before the path of a file. -/
inductive PathHead where
  | add | update | delete | move | old | new

def PathHead.text : PathHead → String
  | .add => "*** Add File: "
  | .update => "*** Update File: "
  | .delete => "*** Delete File: "
  | .move => "*** Move to: "
  | .old => "--- "
  | .new => "+++ "

inductive PatchFrame where
  | beginPatch | endPatch | endOfFile

def PatchFrame.text : PatchFrame → String
  | .beginPatch => "*** Begin Patch"
  | .endPatch => "*** End Patch"
  | .endOfFile => "*** End of File"

inductive PatchLine where
  | named (head : PathHead) (name : LineText)
  | git (text : LineText)
  | frame (frame : PatchFrame)
  | heading (text : LineText)
  | header (hunk : UnifiedHunk)
  | body (line : BodyLine)

def BodyLine.marked (line : BodyLine) : List Char := line.kind.mark :: line.text.val

namespace PatchLine

def chars : PatchLine → List Char
  | named head name => head.text.toList ++ name.val
  | git text => ['d', 'i', 'f', 'f', ' ', '-', '-', 'g', 'i', 't', ' '] ++ text.val
  | frame mark => mark.text.toList
  | heading text => '@' :: '@' :: text.val
  | header hunk => hunk.headerText
  | body line => line.marked

/-- The line as `str::lines` returns it. -/
def shown (line : PatchLine) : List Char := stripReturn line.chars

/-- Whether the line belongs to the header of a file. -/
def isFile : PatchLine → Bool
  | named .. | git _ => true
  | _ => false

def isBody : PatchLine → Bool
  | body _ => true
  | _ => false

def isGit : PatchLine → Bool
  | git _ => true
  | _ => false

/-- A body line that looks like the name line of a unified diff. -/
def isMisread (line : PatchLine) : Bool :=
  line.isBody && (startsLine "--- " line.chars || startsLine "+++ " line.chars)

/-- The same line but for a path. -/
inductive Renamed : PatchLine → PatchLine → Prop
  | named (head : PathHead) (name name' : LineText) : Renamed (named head name) (named head name')
  | git (text text' : LineText) : Renamed (git text) (git text')
  | same (line : PatchLine) (h : line.isFile = false) : Renamed line line

end PatchLine

structure PatchHunk where
  heading : Option LineText
  body : List BodyLine
  endOfFile : Bool

inductive PatchOp where
  | add (path : LineText) (lines : List LineText)
  | delete (path : LineText)
  | update (path : LineText) (target : Option LineText) (hunks : List PatchHunk)

def PatchHunk.lines (hunk : PatchHunk) : List PatchLine :=
  hunk.heading.toList.map .heading ++ hunk.body.map .body ++
    if hunk.endOfFile then [.frame .endOfFile] else []

def PatchOp.lines : PatchOp → List PatchLine
  | .add path lines => .named .add path :: lines.map fun text => .body ⟨.added, text⟩
  | .delete path => [.named .delete path]
  | .update path target hunks =>
    .named .update path :: target.toList.map (.named .move) ++ hunks.flatMap PatchHunk.lines

def UnifiedFile.patchLines (file : UnifiedFile) : List PatchLine :=
  file.git.toList.map .git ++ [.named .old file.oldName, .named .new file.newName] ++
    file.hunks.flatMap fun hunk => .header hunk :: hunk.body.map .body

/-- An apply-patch text, with a line break behind it or without one, or a unified diff. -/
inductive Patch where
  | operations (ops : List PatchOp) (ended : Bool)
  | diff (files : List UnifiedFile)

namespace Patch

/-- All lines but the last one of an apply-patch text. -/
def front : Patch → List PatchLine
  | operations ops _ => .frame .beginPatch :: ops.flatMap PatchOp.lines
  | diff files => files.flatMap UnifiedFile.patchLines

def lines (patch : Patch) : List PatchLine :=
  match patch with
  | operations .. => patch.front ++ [.frame .endPatch]
  | diff _ => patch.front

def chars (patch : Patch) : List Char :=
  match patch with
  | operations _ ended =>
    Lines.join '\n' (patch.front.map PatchLine.chars) ++
      PatchFrame.endPatch.text.toList ++ if ended then ['\n'] else []
  | diff _ => Lines.join '\n' (patch.front.map PatchLine.chars)

def text (patch : Patch) : String := String.ofList patch.chars

/-- The lines that name files. -/
def files (patch : Patch) : List PatchLine := patch.lines.filter PatchLine.isFile

def body (patch : Patch) : List PatchLine := patch.lines.filter PatchLine.isBody

def gitTexts (patch : Patch) : List (List Char) :=
  (patch.lines.filter PatchLine.isGit).map PatchLine.shown

end Patch

/-! ### Single lines -/

lemma startsLine_stripReturn {head : String} (h : '\r' ∉ head.toList) (line : List Char) :
    startsLine head (stripReturn line) = startsLine head line := by
  unfold stripReturn
  split_ifs with hreturn
  · obtain ⟨front, rfl⟩ := List.getLast?_eq_some_iff.mp hreturn
    rw [List.dropLast_concat, Bool.eq_iff_iff]
    simp only [startsLine, List.isPrefixOf_iff_prefix, List.prefix_concat_iff]
    refine ⟨.inr, fun hprefix => hprefix.resolve_left fun heq => h ?_⟩
    rw [heq]
    exact List.mem_concat_self
  · rfl

/-- What the two readers need to know of a line. -/
structure Unmarked (line : List Char) : Prop where
  add : startsLine "*** Add File: " line = false
  update : startsLine "*** Update File: " line = false
  delete : startsLine "*** Delete File: " line = false
  move : startsLine "*** Move to: " line = false

namespace Unmarked

variable {line : List Char}

lemma shown (h : Unmarked line) : Unmarked (stripReturn line) where
  add := (startsLine_stripReturn (by decide) line).trans h.add
  update := (startsLine_stripReturn (by decide) line).trans h.update
  delete := (startsLine_stripReturn (by decide) line).trans h.delete
  move := (startsLine_stripReturn (by decide) line).trans h.move

lemma operationStep_eq (h : Unmarked line) (operations : List EditPathOperation) :
    operationStep operations line = operations := by
  simp [operationStep, operationPath, stripHead, h.add, h.update, h.delete, h.move]

lemma isContent_eq (h : Unmarked line) :
    isContent line = !(startsLine "--- " line || startsLine "+++ " line) := by
  simp [isContent, h.add, h.update, h.delete, h.move, Bool.or_comm]

end Unmarked

namespace PatchLine

lemma unmarked {line : PatchLine} (h : line.isFile = false ∨ line.isGit = true) :
    Unmarked line.chars := by
  cases line with
  | named => simp [isFile, isGit] at h
  | git | heading | header =>
    constructor <;> simp [startsLine, chars, UnifiedHunk.headerText, List.isPrefixOf]
  | frame mark =>
    cases mark <;> constructor <;> simp [startsLine, chars, PatchFrame.text, List.isPrefixOf]
  | body line =>
    obtain ⟨kind, text⟩ := line
    cases kind <;> constructor <;>
      simp [startsLine, chars, BodyLine.marked, EditLineKind.mark, List.isPrefixOf]

lemma plain {line : PatchLine} (h : line.isFile = false ∨ line.isGit = true)
    (hbody : line.isBody = false) :
    startsLine "--- " line.chars = false ∧ startsLine "+++ " line.chars = false ∧
      startsLine "--- a/" line.chars = false ∧ startsLine "+++ b/" line.chars = false := by
  cases line with
  | named => simp [isFile, isGit] at h
  | body => cases hbody
  | git | heading | header =>
    simp [startsLine, chars, UnifiedHunk.headerText, List.isPrefixOf]
  | frame mark => cases mark <;> simp [startsLine, chars, PatchFrame.text, List.isPrefixOf]

lemma isContent_shown {line : PatchLine} (h : line.isFile = false ∨ line.isGit = true) :
    isContent line.shown = !line.isMisread := by
  rw [shown, (unmarked h).shown.isContent_eq, startsLine_stripReturn (by decide),
    startsLine_stripReturn (by decide), isMisread]
  cases hbody : line.isBody with
  | true => rfl
  | false => rw [(plain h hbody).1, (plain h hbody).2.1]; rfl

lemma isContent_named (head : PathHead) (name : LineText) :
    isContent (named head name).shown = false := by
  have hstarts : startsLine head.text (named head name).shown = true := by
    rw [shown, startsLine_stripReturn (by cases head <;> simp [PathHead.text])]
    exact startsLine_append _ _
  cases head <;> rw [PathHead.text] at hstarts <;> simp [isContent, hstarts]

lemma patchPath_shown {line : PatchLine} (h : line.isFile = false) (hbody : line.isBody = false) :
    patchPath line.shown = none := by
  have hplain := plain (.inl h) hbody
  have hold := (startsLine_stripReturn (by decide) line.chars).trans hplain.2.2.1
  have hnew := (startsLine_stripReturn (by decide) line.chars).trans hplain.2.2.2
  have hmarks := (unmarked (.inl h)).shown
  simp [patchPath, stripHead, shown, hold, hnew, hmarks.add, hmarks.update, hmarks.delete,
    hmarks.move]

lemma newline_notMem (line : PatchLine) : '\n' ∉ line.chars := by
  cases line with
  | named head name =>
    have hhead : '\n' ∉ head.text.toList := by cases head <;> simp [PathHead.text]
    exact fun h => (List.mem_append.mp h).elim hhead name.2
  | git text | heading text => simpa [chars] using text.2
  | frame mark => cases mark <;> simp [chars, PatchFrame.text]
  | header hunk =>
    obtain ⟨text, htext⟩ := terminated_lines [⟨none, ⟨[], by simp⟩, ⟨[], by simp⟩, [hunk]⟩]
      (hunk.header, .metadata) (by simp [UnifiedFile.lines, UnifiedHunk.lines])
    have heq : hunk.headerText = text.val := List.append_cancel_right htext
    exact fun h => text.2 (heq ▸ h)
  | body line =>
    have hmark : '\n' ≠ line.kind.mark := by cases line.kind <;> decide
    exact fun h => (List.mem_cons.mp h).elim hmark line.text.2

end PatchLine

/-! ### Texts -/

lemma textLines_join {lines : List (List Char)} (h : ∀ line ∈ lines, '\n' ∉ line)
    (rest : List Char) :
    textLines (Lines.join '\n' lines ++ rest) = lines.map stripReturn ++ textLines rest := by
  induction lines with
  | nil => rfl
  | cons line lines ih =>
    obtain ⟨hline, hlines⟩ := List.forall_mem_cons.mp h
    have hsplit := splitLines_line hline (Lines.join '\n' lines ++ rest)
    rw [Lines.join_cons, List.append_assoc, List.cons_append, List.append_cons, textLines, hsplit,
      List.map_cons, List.getLast?_concat, if_pos rfl, List.dropLast_concat]
    exact congrArg (stripReturn line :: ·) (ih hlines)

namespace Patch

lemma textLines_text (patch : Patch) :
    textLines patch.text.toList = patch.lines.map PatchLine.shown := by
  have hfront : ∀ line ∈ patch.front.map PatchLine.chars, '\n' ∉ line := by
    intro line hline
    obtain ⟨line, -, rfl⟩ := List.mem_map.mp hline
    exact line.newline_notMem
  rw [text, String.toList_ofList]
  cases patch with
  | operations ops ended =>
    rw [chars, List.append_assoc, textLines_join hfront, lines, List.map_append, List.map_map]
    congr 1
    cases ended <;> decide
  | diff files =>
    have h := textLines_join hfront []
    rw [List.append_nil] at h
    rw [chars, h, List.map_map, lines]
    exact List.append_nil _

lemma operations_eq (patch : Patch) :
    applyPatchPathOperations patch.text =
      (patch.files.map PatchLine.shown).foldl operationStep [] := by
  have h : ∀ (lines : List PatchLine) (operations : List EditPathOperation),
      (lines.map PatchLine.shown).foldl operationStep operations =
        ((lines.filter PatchLine.isFile).map PatchLine.shown).foldl operationStep operations := by
    intro lines
    induction lines with
    | nil => intro operations; rfl
    | cons line rest ih =>
      intro operations
      rw [List.map_cons, List.foldl_cons, ih]
      cases hfile : line.isFile with
      | true => rw [List.filter_cons_of_pos hfile, List.map_cons, List.foldl_cons]
      | false =>
        rw [List.filter_cons_of_neg (by simp [hfile]), PatchLine.shown,
          (PatchLine.unmarked (.inl hfile)).shown.operationStep_eq]
  rw [applyPatchPathOperations, textLines_text, h]
  rfl

/-- Paths that the lines of files name. -/
def namedPaths (patch : Patch) : Finset String :=
  ((patch.files.map PatchLine.shown).filterMap patchPath).toFinset

/-- Paths that body lines seem to name. -/
def misreadPaths (patch : Patch) : Finset String :=
  ((patch.body.map PatchLine.shown).filterMap patchPath).toFinset

lemma paths_eq (patch : Patch) :
    ((textLines patch.text.toList).filterMap patchPath).toFinset =
      patch.namedPaths ∪ patch.misreadPaths := by
  ext path
  simp only [textLines_text, namedPaths, misreadPaths, files, body, Finset.mem_union,
    List.mem_toFinset, List.mem_filterMap, List.mem_map, List.mem_filter]
  constructor
  · rintro ⟨_, ⟨line, hline, rfl⟩, hpath⟩
    cases hfile : line.isFile with
    | true => exact .inl ⟨_, ⟨line, ⟨hline, hfile⟩, rfl⟩, hpath⟩
    | false =>
      cases hbody : line.isBody with
      | true => exact .inr ⟨_, ⟨line, ⟨hline, hbody⟩, rfl⟩, hpath⟩
      | false => rw [PatchLine.patchPath_shown hfile hbody] at hpath; cases hpath
  · rintro (⟨_, ⟨line, ⟨hline, -⟩, rfl⟩, hpath⟩ | ⟨_, ⟨line, ⟨hline, -⟩, rfl⟩, hpath⟩) <;>
      exact ⟨_, ⟨line, hline, rfl⟩, hpath⟩

end Patch

/-! ### Objects that are read back -/

section Printed

variable {printed : Number → Prop}

lemma Json.Readable.insert {room : Nat} {fields : Object} {key : String} {value : Json}
    (h : (Json.object fields).Readable printed (room + 1)) (hvalue : value.Readable printed room) :
    (Json.object (Object.insert fields key value)).Readable printed (room + 1) := by
  refine .object (Object.sorted_insert h.sorted.1) fun entry hentry => ?_
  rcases Object.mem_insert hentry with rfl | hentry
  · exact hvalue
  · exact ⟨Json.sortedEntries_iff.mp h.sorted.2 entry hentry,
      Json.numbersEntries_iff.mp h.numbers entry hentry,
      Json.nestingEntries_le_iff.mp (Nat.le_of_succ_le_succ h.nesting) entry hentry⟩

lemma EditPathOperation.readable (operation : EditPathOperation) :
    operation.json.Readable printed 1 := by
  cases operation <;> refine .ofFields fun field hfield => ?_ <;>
    simp only [List.mem_cons, List.not_mem_nil, or_false] at hfield
  case move => rcases hfield with rfl | rfl | rfl <;> exact .string _
  all_goals rcases hfield with rfl | rfl <;> exact .string _

lemma readable_pathFields (value : Json) (paths : List String) :
    (Json.object (pathFields value paths)).Readable printed 3 := by
  have hpaths : (Json.object [("paths", .array (paths.map .string))]).Readable printed 3 := by
    refine .object (List.pairwise_singleton _ _) fun entry hentry => ?_
    rw [List.mem_singleton.mp hentry]
    refine .array fun item hitem => ?_
    obtain ⟨path, -, rfl⟩ := List.mem_map.mp hitem
    exact .string path
  have hoperations : ∀ operations : List EditPathOperation,
      (Json.array (operations.map EditPathOperation.json)).Readable printed 2 := by
    refine fun operations => .array fun item hitem => ?_
    obtain ⟨operation, -, rfl⟩ := List.mem_map.mp hitem
    exact operation.readable
  unfold pathFields
  refine List.foldlRecOn (motive := fun fields : Object =>
    (Json.object fields).Readable printed 3) _ _ ?_ fun fields hfields key _ => ?_
  · split_ifs
    · exact hpaths
    · exact hpaths.insert (hoperations _)
  · split
    · exact hfields.insert (.string _)
    · exact hfields

lemma get?_pathFields (value : Json) (paths : List String) :
    (pathFields value paths).get? "paths" = some (.array (paths.map .string)) := by
  have hinsert : ∀ (fields : Object) (key : String) (inner : Json), key ≠ "paths" →
      (fields.insert key inner).get? "paths" = fields.get? "paths" := by
    intro fields key inner hne
    rw [Object.get?_insert, if_neg hne]
  unfold pathFields
  refine List.foldlRecOn (motive := fun fields : Object =>
    fields.get? "paths" = some (.array (paths.map .string))) _ _ ?_
      fun fields hfields key hkey => ?_
  · split_ifs
    · rfl
    · rw [hinsert _ _ _ (by decide)]
      rfl
  · have hne : key ≠ "paths" := by
      rintro rfl
      simp at hkey
    split
    · rw [hinsert _ _ _ hne, hfields]
    · exact hfields

variable [Platform]

lemma ReadsJson.render_inj (hjson : ReadsJson printed) {value value' : Json}
    (h : value.Readable printed RECURSION_LIMIT) (h' : value'.Readable printed RECURSION_LIMIT)
    (heq : value.render = value'.render) : value = value' := by
  have hread := h.reads hjson
  rw [heq, h'.reads hjson] at hread
  exact (Option.some.inj hread).symm

lemma ReadsJson.content_inj (hjson : ReadsJson printed) {content content' : String}
    (heq : (Json.object [("patch_content", .string content)]).render =
      (Json.object [("patch_content", .string content')]).render) : content = content' := by
  have hreadable : ∀ text, (Json.object [("patch_content", .string text)]).Readable printed 1 := by
    refine fun text => .object (List.pairwise_singleton _ _) fun entry hentry => ?_
    rw [List.mem_singleton.mp hentry]
    exact .string text
  have hfields := hjson.render_inj ((hreadable content).mono (by decide))
    ((hreadable content').mono (by decide)) heq
  simpa using hfields

end Printed

/-! ### Edit calls -/

/-- An edit call whose text supplies a patch, with no other path or content key. -/
structure PatchCall [Platform] (text : String) (value : Json) (patch : Patch) : Prop where
  read : unwrapArguments (parseToolInput text) = value
  patch_eq : patchText value = some patch.text
  plain : ∀ key ∈ PATH_KEYS ++ EDIT_TEXT_KEYS, value.child (.key key) = none

namespace PatchCall

variable [Platform] {text : String} {value : Json} {patch : Patch}

lemma selectedPaths_eq (h : PatchCall text value patch) :
    selectedPaths value = (patch.namedPaths ∪ patch.misreadPaths).sort := by
  have hnone : valueStrings value PATH_KEYS = [] := by
    have hflat : ∀ keys ⊆ PATH_KEYS, valueStrings value keys = sortedTexts [] := by
      intro keys hkeys
      refine congrArg sortedTexts (List.flatMap_eq_nil_iff.mpr fun key hkey => ?_)
      rw [h.plain key (List.mem_append_left _ (hkeys hkey))]
    exact (hflat _ (List.Subset.refl _)).trans (Finset.sort_empty _)
  rw [selectedPaths, hnone, h.patch_eq, ← patch.paths_eq]
  rfl

lemma contentFields_eq (h : PatchCall text value patch) :
    contentFields value = ((nonemptyText (patchContent patch.text)).map fun content =>
      ("patch_content", Json.string content)).toList := by
  have hnone : ((EDIT_TEXT_KEYS ++ ["edits"]).filterMap fun key =>
      ((value.child (.key key)).bind fun field =>
        if key = "edits" then selectEditOperations field
        else (textOf field).map .string).map fun field => (key, field)) = [] := by
    refine List.filterMap_eq_nil_iff.mpr fun key hkey => ?_
    rw [h.plain key]
    · rfl
    · rcases List.mem_append.mp hkey with hkey | hkey
      · exact List.mem_append_right _ hkey
      · rw [List.mem_singleton.mp hkey]
        decide
  rw [contentFields, hnone, h.patch_eq]
  cases hcontent : nonemptyText (patchContent patch.text) <;> simp [hcontent]

lemma path_selection (h : PatchCall text value patch) {printed : Number → Prop}
    (hjson : ReadsJson printed) :
    selectedEditInput text true false =
      if patch.namedPaths ∪ patch.misreadPaths = ∅ then none
      else some (Json.object
        (pathFields value (patch.namedPaths ∪ patch.misreadPaths).sort)).render := by
  have hempty : ((patch.namedPaths ∪ patch.misreadPaths).sort.isEmpty = true) ↔
      patch.namedPaths ∪ patch.misreadPaths = ∅ := by
    rw [List.isEmpty_iff, ← List.toFinset_eq_empty_iff, Finset.sort_toFinset]
  have hinput : selectedPathInput text = if patch.namedPaths ∪ patch.misreadPaths = ∅ then none
      else some (Json.object
        (pathFields value (patch.namedPaths ∪ patch.misreadPaths).sort)).render := by
    simp only [selectedPathInput, h.read, h.selectedPaths_eq, hempty]
  have hreadable := @readable_pathFields printed value (patch.namedPaths ∪ patch.misreadPaths).sort
  have hget := get?_pathFields value (patch.namedPaths ∪ patch.misreadPaths).sort
  generalize pathFields value (patch.namedPaths ∪ patch.misreadPaths).sort = fields at *
  show (selectedPathFields text).bind _ = _
  rw [selectedPathFields, hinput]
  by_cases hnone : patch.namedPaths ∪ patch.misreadPaths = ∅
  · rw [if_pos hnone]
    rfl
  · have hextend : Object.extend [] fields = fields := Object.extend_of_sorted hreadable.sorted.1
    rw [if_neg hnone, Option.bind_some, (hreadable.mono (by decide)).reads hjson]
    show (some (Object.extend [] fields)).bind _ = _
    rw [hextend]
    cases fields with
    | nil => cases hget
    | cons => rfl

lemma content_selection (h : PatchCall text value patch) :
    selectedEditInput text false true =
      (nonemptyText (patchContent patch.text)).map fun content =>
        (Json.object [("patch_content", .string content)]).render := by
  simp only [selectedEditInput, Bool.not_true, Bool.and_false, Bool.false_eq_true, if_false,
    if_true, Option.bind_some, h.read, h.contentFields_eq]
  cases nonemptyText (patchContent patch.text) <;> rfl

/-- Two calls with the same files select the same paths when their body lines seem to name the
same ones besides. -/
lemma path_selection_eq_iff (h : PatchCall text value patch) {text' : String} {value' : Json}
    {patch' : Patch} (h' : PatchCall text' value' patch') {printed : Number → Prop}
    (hjson : ReadsJson printed) (hfiles : patch.files = patch'.files)
    (hcontext : ∀ key ∈ ["cwd", "workdir"], value.child (.key key) = value'.child (.key key)) :
    selectedEditInput text true false = selectedEditInput text' true false ↔
      ∀ path ∉ patch.namedPaths, path ∈ patch.misreadPaths ↔ path ∈ patch'.misreadPaths := by
  have hnamed : patch'.namedPaths = patch.namedPaths := by
    rw [Patch.namedPaths, Patch.namedPaths, hfiles]
  have hunion : patch.namedPaths ∪ patch.misreadPaths = patch'.namedPaths ∪ patch'.misreadPaths ↔
      ∀ path ∉ patch.namedPaths, path ∈ patch.misreadPaths ↔ path ∈ patch'.misreadPaths := by
    rw [hnamed, Finset.ext_iff]
    refine forall_congr' fun path => ?_
    rw [Finset.mem_union, Finset.mem_union]
    by_cases hpath : path ∈ patch.namedPaths <;> simp [hpath]
  rw [← hunion, h.path_selection hjson, h'.path_selection hjson]
  generalize patch.namedPaths ∪ patch.misreadPaths = paths
  generalize patch'.namedPaths ∪ patch'.misreadPaths = paths'
  constructor
  · intro heq
    split_ifs at heq with hempty hempty' hempty'
    · rw [hempty, hempty']
    · have hfields := hjson.render_inj ((readable_pathFields _ _).mono (by decide))
        ((readable_pathFields _ _).mono (by decide)) (Option.some.inj heq)
      have hget := get?_pathFields value paths.sort
      rw [Json.object.inj hfields, get?_pathFields] at hget
      have hsort := List.map_injective_iff.mpr (fun _ _ => Json.string.inj)
        (Json.array.inj (Option.some.inj hget))
      have hsets := congrArg List.toFinset hsort
      rw [Finset.sort_toFinset, Finset.sort_toFinset] at hsets
      exact hsets.symm
  · rintro rfl
    have hfields : pathFields value paths.sort = pathFields value' paths.sort := by
      have hpatch : (patchText value).elim [] applyPatchPathOperations =
          (patchText value').elim [] applyPatchPathOperations := by
        rw [h.patch_eq, h'.patch_eq, Option.elim_some, Option.elim_some, patch.operations_eq,
          patch'.operations_eq, hfiles]
      rw [pathFields, pathFields, hpatch]
      simp only [List.foldl_cons, List.foldl_nil, hcontext "cwd" (by simp),
        hcontext "workdir" (by simp)]
    rw [hfields]

end PatchCall

/-! ### Content -/

namespace Patch

/-- The lines of a content selection. -/
def contentLines (patch : Patch) : List (List Char) :=
  (patch.lines.map PatchLine.shown).filter isContent

lemma patchContent_text (patch : Patch) :
    patchContent patch.text = String.ofList (List.intercalate ['\n'] patch.contentLines) := by
  rw [patchContent, textLines_text, contentLines]

lemma newline_notMem (patch : Patch) : ∀ line ∈ patch.contentLines, '\n' ∉ line := by
  intro line hline
  obtain ⟨line, -, rfl⟩ := List.mem_map.mp (List.mem_of_mem_filter hline)
  have hsub : ∀ line : List Char, stripReturn line ⊆ line := by
    intro line
    unfold stripReturn
    split_ifs
    · exact List.dropLast_subset line
    · exact List.Subset.refl line
  exact fun h => line.newline_notMem (hsub _ h)

lemma splitOn_patchContent {patch : Patch} (h : patch.contentLines ≠ []) :
    (patchContent patch.text).toList.splitOn '\n' = patch.contentLines := by
  rw [patchContent_text, String.toList_ofList, List.splitOn_intercalate _ patch.newline_notMem h]

/-- Renamed files leave the same content when the `diff --git` lines stay. -/
lemma patchContent_eq_iff {patch patch' : Patch}
    (h : List.Forall₂ PatchLine.Renamed patch.lines patch'.lines) :
    patchContent patch.text = patchContent patch'.text ↔ patch.gitTexts = patch'.gitTexts := by
  have hlines : ∀ {lines lines' : List PatchLine}, List.Forall₂ PatchLine.Renamed lines lines' →
      let content := fun lines : List PatchLine => (lines.map PatchLine.shown).filter isContent
      let gits := fun lines : List PatchLine => (lines.filter PatchLine.isGit).map PatchLine.shown
      (content lines).length = (content lines').length ∧
        (content lines = content lines' ↔ gits lines = gits lines') := by
    intro lines lines' h
    induction h with
    | nil => exact ⟨rfl, Iff.rfl⟩
    | @cons line line' rest rest' hline _ ih =>
      obtain ⟨hlength, hiff⟩ := ih
      cases hline with
      | named head name name' =>
        simpa [PatchLine.isContent_named, PatchLine.isGit, List.filter_cons] using ⟨hlength, hiff⟩
      | git text text' =>
        have hgit : ∀ text, isContent (PatchLine.git text).shown = true := fun text =>
          PatchLine.isContent_shown (.inr rfl)
        simpa [hgit, PatchLine.isGit, List.filter_cons] using
          ⟨hlength, fun _ => hiff⟩
      | same _ hfile =>
        have hgit : line.isGit = false := by
          cases line <;> first | rfl | cases hfile
        cases hcontent : isContent line.shown <;>
          simpa [hcontent, hgit, List.filter_cons] using ⟨hlength, hiff⟩
  obtain ⟨hlength, hiff⟩ := hlines h
  refine Iff.trans ⟨fun heq => ?_, fun heq => ?_⟩ hiff
  · show patch.contentLines = patch'.contentLines
    by_cases hempty : patch.contentLines = []
    · rw [hempty, eq_comm, ← List.length_eq_zero_iff]
      exact hlength.symm.trans (List.length_eq_zero_iff.mpr hempty)
    · have hempty' : patch'.contentLines ≠ [] := fun hnil => hempty
        (List.length_eq_zero_iff.mp (hlength.trans (List.length_eq_zero_iff.mpr hnil)))
      rw [← splitOn_patchContent hempty, heq, splitOn_patchContent hempty']
  · have hcontent : patch.contentLines = patch'.contentLines := heq
    rw [patchContent_text, patchContent_text, hcontent]

end Patch

/-- The content selection has the line. -/
def ShowsLine (selection : Option String) (line : List Char) : Prop :=
  ∃ content : String, selection = some (Json.object [("patch_content", .string content)]).render ∧
    line ∈ content.toList.splitOn '\n'

namespace PatchCall

variable [Platform] {text text' : String} {value value' : Json} {patch patch' : Patch}
  {printed : Number → Prop}

lemma content_selection_eq_iff (h : PatchCall text value patch)
    (h' : PatchCall text' value' patch') (hjson : ReadsJson printed)
    (hrenamed : List.Forall₂ PatchLine.Renamed patch.lines patch'.lines) :
    selectedEditInput text false true = selectedEditInput text' false true ↔
      patch.gitTexts = patch'.gitTexts := by
  rw [h.content_selection, h'.content_selection, ← Patch.patchContent_eq_iff hrenamed]
  refine ⟨fun heq => ?_, fun heq => by rw [heq]⟩
  unfold nonemptyText at heq
  split_ifs at heq with hempty hempty'
  · rw [hempty, hempty']
  · cases heq
  · cases heq
  · exact hjson.content_inj (Option.some.inj heq)

lemma showsLine_iff (h : PatchCall text value patch) (hjson : ReadsJson printed)
    {line : BodyLine} (hline : .body line ∈ patch.lines) :
    ShowsLine (selectedEditInput text false true) (PatchLine.body line).shown ↔
      (PatchLine.body line).isMisread = false := by
  have hcontent : isContent (PatchLine.body line).shown = !(PatchLine.body line).isMisread :=
    PatchLine.isContent_shown (.inl rfl)
  rw [h.content_selection]
  constructor
  · rintro ⟨content, heq, hmem⟩
    unfold nonemptyText at heq
    split_ifs at heq with hempty
    · cases heq
    · have hne : patch.contentLines ≠ [] := by
        intro hnil
        rw [Patch.patchContent_text, hnil] at hempty
        exact hempty rfl
      rw [← hjson.content_inj (Option.some.inj heq), Patch.splitOn_patchContent hne] at hmem
      rw [(List.mem_filter.mp hmem).2] at hcontent
      exact (Bool.not_eq_true' _).mp hcontent.symm
  · intro hread
    rw [hread] at hcontent
    have hmem : (PatchLine.body line).shown ∈ patch.contentLines :=
      List.mem_filter.mpr ⟨List.mem_map_of_mem hline, hcontent⟩
    have hsplit := Patch.splitOn_patchContent (List.ne_nil_of_mem hmem)
    refine ⟨patchContent patch.text, ?_, hsplit ▸ hmem⟩
    rw [nonemptyText, if_neg, Option.map_some]
    intro hempty
    rw [hempty] at hsplit
    rw [← hsplit] at hmem
    have hnil : (PatchLine.body line).shown = [] := List.mem_singleton.mp hmem
    have hmark : line.kind.mark ≠ '\r' := by cases line.kind <;> decide
    have hchars : stripReturn (line.kind.mark :: line.text.val) = [] := hnil
    unfold stripReturn at hchars
    split_ifs at hchars with hreturn
    cases htext : line.text.val with
    | nil => rw [htext] at hreturn; exact hmark (Option.some.inj hreturn)
    | cons => rw [htext] at hchars; cases hchars

end PatchCall

/-- **Edit selections separate paths from content, unless a line is misread.**  Two calls with
the same files select the same paths exactly when their body lines seem to name the same
paths besides; two that differ in paths select the same content exactly when their
`diff --git` lines are the same; and the content shows a body line exactly when it does not
look like a name line. -/
theorem edit_selections_separate_iff [Platform] {printed : Number → Prop}
    (hjson : ReadsJson printed) {text text' : String} {value value' : Json} {patch patch' : Patch}
    (h : PatchCall text value patch) (h' : PatchCall text' value' patch') :
    (patch.files = patch'.files →
        (∀ key ∈ ["cwd", "workdir"], value.child (.key key) = value'.child (.key key)) →
        (selectedEditInput text true false = selectedEditInput text' true false ↔
          ∀ path ∉ patch.namedPaths, path ∈ patch.misreadPaths ↔ path ∈ patch'.misreadPaths)) ∧
      (List.Forall₂ PatchLine.Renamed patch.lines patch'.lines →
        (selectedEditInput text false true = selectedEditInput text' false true ↔
          patch.gitTexts = patch'.gitTexts)) ∧
      ∀ line : BodyLine, .body line ∈ patch.lines →
        (ShowsLine (selectedEditInput text false true) (PatchLine.body line).shown ↔
          (PatchLine.body line).isMisread = false) :=
  ⟨fun hfiles hcontext => h.path_selection_eq_iff h' hjson hfiles hcontext,
    fun hrenamed => h.content_selection_eq_iff h' hjson hrenamed,
    fun _ hline => h.showsLine_iff hjson hline⟩

/-- A patch that removes one line of a file. -/
def removalPatch (text : LineText) : Patch :=
  .operations [.update ⟨['f'], by decide⟩ none
    [⟨some ⟨[], by decide⟩, [⟨.removed, text⟩], false⟩]] false

def removalText (line : String) : String :=
  "*** Begin Patch\n*** Update File: f\n@@\n" ++ line ++ "\n*** End Patch"

/-- Removals of two lines select the same path. -/
theorem edit_selections_separate_iff_removal :
    @selectedEditInput compactPlatform (removalText "-x") true false =
      @selectedEditInput compactPlatform (removalText "-y") true false := by
  have h : @PatchCall compactPlatform (removalText "-x") (.string (removalText "-x"))
      (removalPatch ⟨['x'], by decide⟩) :=
    @PatchCall.mk compactPlatform _ _ _ (by rfl) (by rfl) (by decide)
  have h' : @PatchCall compactPlatform (removalText "-y") (.string (removalText "-y"))
      (removalPatch ⟨['y'], by decide⟩) :=
    @PatchCall.mk compactPlatform _ _ _ (by rfl) (by rfl) (by decide)
  refine ((@edit_selections_separate_iff compactPlatform PlainNumber compactPlatform_readsJson
    _ _ _ _ _ _ h h').1 rfl fun _ _ => rfl).mpr fun path _ => ?_
  have hbody : ∀ text, (removalPatch text).body = [.body ⟨.removed, text⟩] := fun _ => rfl
  have hx : patchPath (PatchLine.body ⟨.removed, ⟨['x'], by decide⟩⟩).shown = none := by rfl
  have hy : patchPath (PatchLine.body ⟨.removed, ⟨['y'], by decide⟩⟩).shown = none := by rfl
  simp [Patch.misreadPaths, hbody, hx, hy]

/-- The content of a patch that removes the line `-- y` does not show it. -/
theorem removed_comment_is_lost :
    let line : BodyLine := ⟨.removed, ⟨['-', '-', ' ', 'y'], by decide⟩⟩
    @PatchCall compactPlatform "*** Begin Patch\n*** Update File: f\n@@\n--- y\n*** End Patch"
        (.string "*** Begin Patch\n*** Update File: f\n@@\n--- y\n*** End Patch")
        (removalPatch line.text) ∧
      .body line ∈ (removalPatch line.text).lines ∧
      ¬ ShowsLine (@selectedEditInput compactPlatform
          "*** Begin Patch\n*** Update File: f\n@@\n--- y\n*** End Patch" false true)
        (PatchLine.body line).shown := by
  intro line
  have hcall : @PatchCall compactPlatform
      "*** Begin Patch\n*** Update File: f\n@@\n--- y\n*** End Patch"
      (.string "*** Begin Patch\n*** Update File: f\n@@\n--- y\n*** End Patch")
      (removalPatch line.text) :=
    @PatchCall.mk compactPlatform _ _ _ (by rfl) (by rfl) (by decide)
  have hline : .body line ∈ (removalPatch line.text).lines := by
    simp [removalPatch, Patch.lines, Patch.front, PatchOp.lines, PatchHunk.lines, line]
  refine ⟨hcall, hline, fun hshows => ?_⟩
  have hread := (@PatchCall.showsLine_iff compactPlatform _ _ _ _ hcall compactPlatform_readsJson _
    hline).mp hshows
  exact absurd hread (by decide)

end Antiburn
