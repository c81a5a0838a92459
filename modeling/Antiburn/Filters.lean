/-
Pure filters for facts captured at the selected event's own scope.

A path set that is known to be partial can prove an include or a veto, but not
the absence of a veto.  The work of one event's patterns is bounded; a pattern
set that does not fit fails closed.
-/
import Antiburn.Domain

namespace Antiburn

/-- Maximum aggregate byte-product work for one event's include and veto patterns. -/
def MAX_PATH_FILTER_WORK : Nat := 1000000

inductive AttributionScope where
  | message | turn | session
  deriving DecidableEq

inductive FilterField where
  | model | fastMode | paths | pathsIgnore
  deriving DecidableEq

/-- Why captured evidence did not satisfy a filter. -/
inductive FilterReason where
  | unavailable | incomplete | invalid | knownEmpty | noMatch | ignoredPath | limitExceeded
  deriving DecidableEq

/-- Bounded selector diagnostic retained with branch progress. -/
structure FilterDiagnostic where
  field : FilterField
  reason : FilterReason
  scope : AttributionScope
  limits : List String
  deriving DecidableEq

def splitChars (separator : Char) : List Char → List (List Char)
  | [] => [[]]
  | c :: rest =>
    match splitChars separator rest with
    | [] => [[]]
    | segment :: segments =>
      if c == separator then [] :: segment :: segments else (c :: segment) :: segments

def isRepositoryPath (value : String) : Bool :=
  let text := value.toList
  !text.isEmpty && !text.any (fun c => c == '\\' || c == '\x00') &&
    -- a colon in the second byte; a first character of several bytes has none there
    !(match text with
      | first :: second :: _ => first.utf8Size == 1 && second == ':'
      | _ => false) &&
    (splitChars '/' text).all fun segment =>
      !(segment == [] || segment == ['.'] || segment == ['.', '.'])

def segmentStep (value : List Char) (token : Char) (reachable : List Bool) : List Bool :=
  if token == '*' then
    -- every later prefix is reachable from an earlier one
    (reachable.foldl (fun (acc : List Bool × Bool) here =>
      let here := here || acc.2
      (acc.1 ++ [here], here)) ([], false)).1
  else
    false :: (reachable.zip value).map fun (here, c) => here && (token == '?' || token == c)

def segmentMatches (pattern value : List Char) : Bool :=
  let start := true :: value.map fun _ => false
  (pattern.foldl (fun reachable token => segmentStep value token reachable) start).getLastD false

def globStep (path : List (List Char)) (pattern : List Char) (reachable : List Bool) :
    List Bool :=
  if pattern == ['*', '*'] then
    (reachable.foldl (fun (acc : List Bool × Bool) here =>
      let here := here || acc.2
      (acc.1 ++ [here], here)) ([], false)).1
  else
    false :: (reachable.zip path).map fun (here, segment) => here && segmentMatches pattern segment

def RepositoryGlob.matches (glob : RepositoryGlob) (path : String) : Bool :=
  if !isRepositoryPath path then false
  else
    let segments := splitChars '/' path.toList
    let start := true :: segments.map fun _ => false
    ((splitChars '/' glob.pattern.toList).foldl
      (fun reachable pattern => globStep segments pattern reachable) start).getLastD false

/-- Whether some path matches some pattern, within the work left; `none` when
the work does not fit. -/
def anyPathMatches (globs : List RepositoryGlob) : List String → Nat → Option (Bool × Nat)
  | [], work => some (false, work)
  | path :: rest, work =>
    match matchOne path globs work with
    | none => none
    | some (true, work) => some (true, work)
    | some (false, work) => anyPathMatches globs rest work
where
  /-- All patterns against one path. -/
  matchOne (path : String) : List RepositoryGlob → Nat → Option (Bool × Nat)
    | [], work => some (false, work)
    | glob :: rest, work =>
      let cost := glob.pattern.utf8ByteSize * path.utf8ByteSize
      if cost ≤ work then
        if glob.matches path then some (true, work - cost) else matchOne path rest (work - cost)
      else none

def pathLimits (message : Json) : List String :=
  ((((message.get? "quality").bind (·.get? "paths_limits")).bind Json.asArray).getD []).filterMap
    Json.asStr

def evaluatePathFilters (includes ignores : Option (List RepositoryGlob)) (message : Json) :
    Except FilterDiagnostic Unit :=
  if includes.isNone && ignores.isNone then .ok ()
  else
    let fail (field : FilterField) (reason : FilterReason) : Except FilterDiagnostic Unit :=
      .error ⟨field, reason, .message, pathLimits message⟩
    let field := if ignores.isSome then FilterField.pathsIgnore else FilterField.paths
    match ((message.get? "tool").bind (·.get? "paths")).bind Json.asArray with
    | none => fail field .unavailable
    | some items =>
      match items.mapM fun item => item.asStr.filter isRepositoryPath with
      | none => fail field .invalid
      | some paths =>
        let complete :=
          ((message.get? "quality").bind (·.get? "paths_complete")).bind Json.asBool == some true
        let vetoed : Except FilterDiagnostic Nat := match ignores with
          | none => .ok MAX_PATH_FILTER_WORK
          | some ignores =>
            match anyPathMatches ignores paths MAX_PATH_FILTER_WORK with
            | none => (fail .pathsIgnore .limitExceeded).map fun _ => 0
            | some (true, _) => (fail .pathsIgnore .ignoredPath).map fun _ => 0
            | some (false, work) =>
              if complete then .ok work else (fail .pathsIgnore .incomplete).map fun _ => 0
        match vetoed, includes with
        | .error diagnostic, _ => .error diagnostic
        | .ok _, none => .ok ()
        | .ok work, some includes =>
          match anyPathMatches includes paths work with
          | none => fail .paths .limitExceeded
          | some (true, _) => .ok ()
          | some (false, _) =>
            fail .paths
              (if !complete then .incomplete else if paths.isEmpty then .knownEmpty else .noMatch)

section Attribution

variable [Platform]

/-- Checks the exact provider/model syntax. -/
def isModelIdentifier (value : String) : Bool :=
  value.toList.contains '/' && (splitChars '/' value.toList).all (fun segment => !segment.isEmpty) &&
    !value.toList.any Platform.isWhitespace

def recordedLimit (value : Json) (field : String) : List String :=
  (((value.get? "quality").bind (·.get? field)).bind Json.asStr).toList

def evaluateAttributionFilters (models : Option (List String)) (fastMode : Option Bool)
    (scope : AttributionScope) (value : Json) : Except FilterDiagnostic Unit := do
  if let some models := models then
    let reason := match (value.get? "model").bind Json.asStr with
      | none => some FilterReason.unavailable
      | some model =>
        if !isModelIdentifier model then some .invalid
        else if !models.contains model then some .noMatch
        else none
    if let some reason := reason then
      throw ⟨.model, reason, scope, recordedLimit value "model_limit"⟩
  if let some expected := fastMode then
    let reason := match (value.get? "fast_mode").bind Json.asBool with
      | none => some FilterReason.unavailable
      | some mode => if mode != expected then some .noMatch else none
    if let some reason := reason then
      throw ⟨.fastMode, reason, scope, recordedLimit value "fast_mode_limit"⟩

def evaluateScopedFilters (filters : EventFilters) (scope : AttributionScope) (value : Json) :
    Except FilterDiagnostic Unit :=
  evaluateAttributionFilters filters.models filters.fastMode scope value

/-- Attribution and path filters of result events. -/
def evaluateMessageFilters (check : CompiledCheck) (message : Json) :
    Except FilterDiagnostic Unit := do
  evaluateAttributionFilters check.trigger.models check.trigger.fastMode .message message
  evaluatePathFilters check.trigger.paths check.trigger.pathsIgnore message

def parseCategory : String → Option ToolCategory
  | "shell" => some .shell
  | "read" => some .read
  | "search" => some .search
  | "edit" => some .edit
  | "write" => some .write
  | "delegate" => some .delegate
  | "skill" => some .skill
  | "mcp" => some .mcp
  | "other" => some .other
  | _ => none

def parseStatus : String → Option ToolResultStatus
  | "completed" => some .completed
  | "error" => some .error
  | "cancelled" => some .cancelled
  | "unknown" => some .unknown
  | _ => none

def matchesFilters (check : CompiledCheck) (category : Option ToolCategory)
    (status : ToolResultStatus) : Bool :=
  check.trigger.tools.all (fun tools => category.any tools.contains) &&
    check.trigger.statuses.all (·.contains status)

def evaluateMessageAlternative (filters : EventFilters) (message : Json) :
    Except FilterDiagnostic Bool :=
  let category := ((message.index "tool").index "category").asStr.bind parseCategory
  if filters.tools.any fun tools => !category.any tools.contains then .ok false
  else do
    evaluateScopedFilters filters .message message
    evaluatePathFilters filters.paths filters.pathsIgnore message
    return true

def evaluateEventFilters (check : CompiledCheck) (observation : Observation) :
    Except FilterDiagnostic Bool :=
  match check.trigger.family, observation.kind with
  | .messages true _ _ _, .toolResult message category status =>
    match parseStatus status with
    | none => .ok false
    | some status =>
      if matchesFilters check (parseCategory category) status then do
        evaluateMessageFilters check message.value
        return true
      else .ok false
  | .messages _ (some filters) _ _, .userMessage message =>
    evaluateMessageAlternative filters message.value
  | .messages _ _ (some filters) _, .assistantMessage message =>
    evaluateMessageAlternative filters message.value
  | .messages _ _ _ (some filters), .toolCall message =>
    evaluateMessageAlternative filters message.value
  | .responseCycle filters, .turnEnd turn =>
    let status := (turn.index "status").asStr.bind parseStatus
    if filters.statuses.any fun statuses => !status.any statuses.contains then .ok false
    else do
      evaluateScopedFilters filters .turn turn
      return true
  | .session (some filters) _, .sessionStart reason =>
    if filters.reasons.any fun reasons => !reasons.contains reason then .ok false
    else do
      evaluateScopedFilters filters .session (observation.context.value.index "session")
      return true
  | .session _ (some filters), .sessionIdle _ _ _ _ => do
    evaluateScopedFilters filters .session (observation.context.value.index "session")
    return true
  | _, _ => .ok false

end Attribution

end Antiburn
