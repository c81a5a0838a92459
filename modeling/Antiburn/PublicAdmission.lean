/-
When the messages that the source admits are public messages.

A result is published as facts, and its message is never validated.  Each rule of
the validation is therefore a condition on those facts; a typed message passes the
rules, but its quality flags are its own.  `admits_public_messages_iff` has exactly
these conditions.
-/
import Antiburn.Publications

namespace Antiburn

namespace Publication

open PublicMessage Object Json

/-! ### The message of a result, field by field -/

section Fields

variable (result : PublishedToolResult) (context : PublishedContext)

def modeEvidence : Option String :=
  result.metadata.attribution.fastMode.bind fun _ => result.metadata.fastModeEvidence

def qualityFacts : List (String × Option Json) :=
  [("source_complete", some (.bool result.payloadComplete)),
    ("tool_name_available", some (.bool result.toolName.isSome)),
    ("category_available", some (.bool (resultCategory result).isSome)),
    ("arguments_available", some (.bool result.arguments.isSome)),
    ("result_content_available", some (.bool result.content.isSome)),
    ("request_history_complete", some (.bool context.completeThroughEvent)),
    ("main_session", some (.bool context.mainSession)),
    ("paths_available", some (.bool result.metadata.paths.isSome)),
    ("paths_complete",
      some (.bool (result.metadata.paths.isSome && result.metadata.pathsComplete))),
    ("paths_limits", some (jsonStrings result.metadata.pathsLimits)),
    ("fast_mode_evidence", (modeEvidence result).map .string),
    ("model_limit", result.metadata.modelLimit.map .string),
    ("fast_mode_limit", result.metadata.fastModeLimit.map .string),
    ("category_limit", result.metadata.categoryLimit.map .string)]

def resultContents : List (String × Option Json) :=
  [("content", result.content.map .string), ("status", some (.string (resultStatus result.status))),
    ("outcome", result.outcome)]

def toolContents : List (String × Option Json) :=
  [("name", result.toolName.map .string), ("category", (resultCategory result).map .string),
    ("arguments", result.arguments), ("result", some (.object (resultFacts result))),
    ("paths", result.metadata.paths.map jsonStrings),
    ("provider_executed", result.providerExecuted.map .bool)]

def messageContents : List (String × Option Json) :=
  [("id", some (.string result.identity)), ("source", some (.string context.agentName)),
    ("kind", some (.string "tool_result")), ("role", some (.string "tool")),
    ("tool", some (.object (resultTool result))),
    ("native_order", some (.string result.nativeOrder)),
    ("quality", some (.object (resultQuality result context))),
    ("model", result.metadata.attribution.model.map .string),
    ("fast_mode", result.metadata.attribution.fastMode.map .bool)]

variable {entries : Object} {before after : List (String × Option Json)} {key : String}

lemma Built.removeText {text : Option String}
    (h : Built entries (before ++ (key, some (jsonText text)) :: after))
    (hkey : key ∉ (before ++ after).map Prod.fst) :
    Built (entries.removeIf text.isNone key) (before ++ (key, text.map .string) :: after) := by
  cases text with
  | none => exact @Built.removeIf entries before after key none h hkey
  | some text => exact h

lemma resultQuality_built : Built (resultQuality result context) (qualityFacts result context) := by
  have hten := @Built.ofFields ((qualityFacts result context).take 10) (by
    show List.Nodup ["source_complete", "tool_name_available", "category_available",
      "arguments_available", "result_content_available", "request_history_complete",
      "main_session", "paths_available", "paths_complete", "paths_limits"]
    decide)
  have hevidence : (result.metadata.attribution.fastMode.bind fun _ =>
      result.metadata.fastModeEvidence.map Json.string) = (modeEvidence result).map .string := by
    unfold modeEvidence
    cases result.metadata.attribution.fastMode <;> rfl
  unfold resultQuality
  rw [hevidence]
  have h := hten.insertSome ((modeEvidence result).map .string)
    (by simp [qualityFacts] : "fast_mode_evidence" ∉ _)
  have h := h.insertSome (result.metadata.modelLimit.map .string)
    (by simp [qualityFacts] : "model_limit" ∉ _)
  have h := h.insertSome (result.metadata.fastModeLimit.map .string)
    (by simp [qualityFacts] : "fast_mode_limit" ∉ _)
  exact h.insertSome (result.metadata.categoryLimit.map .string)
    (by simp [qualityFacts] : "category_limit" ∉ _)

lemma resultFacts_built : Built (resultFacts result) (resultContents result) := by
  have h := @Built.ofFields [("content", some (jsonText result.content)),
    ("status", some (.string (resultStatus result.status)))] (by simp)
  have h := @Built.removeText _ [] _ _ _ h (by simp)
  exact h.insertSome result.outcome (by simp)

lemma resultTool_built : Built (resultTool result) (toolContents result) := by
  have h := @Built.ofFields [("name", some (jsonText result.toolName)),
    ("category", some (jsonText (resultCategory result))),
    ("arguments", some (result.arguments.getD .null)),
    ("result", some (.object (resultFacts result)))] (by simp)
  have h := h.insertSome (result.metadata.paths.map jsonStrings) (by simp : "paths" ∉ _)
  have h := @Built.removeText _ [] _ _ _ h (by simp)
  have h := @Built.removeText _ [("name", result.toolName.map .string)] _ _ _ h (by simp)
  have h := @Built.removeIf _ [("name", result.toolName.map .string),
    ("category", (resultCategory result).map .string)] _ _ _ h (by simp)
  exact h.insertSome (result.providerExecuted.map .bool) (by simp : "provider_executed" ∉ _)

/-- The fields of a result message, those that are present. -/
def resultEntries : Object :=
  ((Object.ofFields
    [("id", .string result.identity), ("source", .string context.agentName),
      ("kind", .string "tool_result"), ("role", .string "tool"),
      ("tool", .object (resultTool result)), ("native_order", .string result.nativeOrder),
      ("quality", .object (resultQuality result context))]).insertSome "model"
        (result.metadata.attribution.model.map .string)).insertSome "fast_mode"
          (result.metadata.attribution.fastMode.map .bool)

lemma resultMessage_value :
    (resultMessage result context).value = .object (resultEntries result context) := rfl

lemma resultEntries_built :
    Built (resultEntries result context) (messageContents result context) := by
  have h := @Built.ofFields ((messageContents result context).take 7) (by simp [messageContents])
  have h := h.insertSome (result.metadata.attribution.model.map .string)
    (by simp [messageContents] : "model" ∉ _)
  exact h.insertSome (result.metadata.attribution.fastMode.map .bool)
    (by simp [messageContents] : "fast_mode" ∉ _)

end Fields

/-! ### The size of a result message -/

variable {entries : Object}

section Sizes

variable (result : PublishedToolResult) (context : PublishedContext)

def fieldsBytes (fields : List (String × Option Json)) : Nat := 1 + (fields.map fieldBytes).sum

def factsBytes : Nat := fieldsBytes (resultContents result)

def toolBytes : Nat :=
  fieldsBytes [("name", result.toolName.map .string),
    ("category", (resultCategory result).map .string), ("arguments", result.arguments),
    ("paths", result.metadata.paths.map jsonStrings),
    ("provider_executed", result.providerExecuted.map .bool)] +
  (keyBytes "result" + factsBytes result)

def resultBytes : Nat :=
  fieldsBytes [("id", some (.string result.identity)), ("source", some (.string context.agentName)),
    ("kind", some (.string "tool_result")), ("role", some (.string "tool")),
    ("native_order", some (.string result.nativeOrder)),
    ("model", result.metadata.attribution.model.map .string),
    ("fast_mode", result.metadata.attribution.fastMode.map .bool)] +
  (keyBytes "tool" + toolBytes result) +
  (keyBytes "quality" + fieldsBytes (qualityFacts result context))

def one {α : Type} (fact : Option α) : Nat := fact.elim 0 fun _ => 1

def resultNodes : Nat :=
  20 + result.metadata.pathsLimits.length +
    (result.metadata.paths.elim 0 fun paths => 1 + paths.length) +
    (result.arguments.elim 0 nodeCount + result.outcome.elim 0 nodeCount) +
    (one result.toolName + one (resultCategory result) + one result.content) +
    (one result.metadata.attribution.model + one result.metadata.attribution.fastMode +
      one result.providerExecuted) +
    (one (modeEvidence result) + one result.metadata.modelLimit +
      one result.metadata.fastModeLimit + one result.metadata.categoryLimit)

/-- A value that starts at a depth, if there is one, goes no deeper than the public limit. -/
def DepthFits (depth : Nat) (value : Option Json) : Prop :=
  ∀ found ∈ value, ∀ reached ∈ found.visits depth, reached ≤ PUBLIC_LIMITS.maxDepth

/-- The facts of a result keep the public limits: the arguments lie two levels below the
message, the outcome three. -/
structure FitsResult : Prop where
  arguments : DepthFits 3 result.arguments
  outcome : DepthFits 4 result.outcome
  nodes : resultNodes result ≤ PUBLIC_LIMITS.maxNodes
  bytes : resultBytes result context ≤ PUBLIC_LIMITS.maxBytes

lemma byteSize_resultMessage :
    (resultMessage result context).value.byteSize = resultBytes result context := by
  have hqual := byteSize_built (resultQuality_built result context)
    ⟨_, List.mem_cons_self, rfl⟩
  have hfacts := byteSize_built (resultFacts_built result)
    ⟨("status", some (.string (resultStatus result.status))), by simp [resultContents], rfl⟩
  have htool := byteSize_built (resultTool_built result)
    ⟨("result", some (.object (resultFacts result))), by simp [toolContents], rfl⟩
  have hmsg := byteSize_built (resultEntries_built result context)
    ⟨_, List.mem_cons_self, rfl⟩
  rw [resultMessage_value, hmsg]
  unfold resultBytes toolBytes factsBytes fieldsBytes
  have hresultField : fieldBytes ("result", some (.object (resultFacts result))) =
      keyBytes "result" + (1 + ((resultContents result).map fieldBytes).sum) := by
    show keyBytes "result" + (object (resultFacts result)).byteSize = _
    rw [hfacts]
  have htoolField : fieldBytes ("tool", some (.object (resultTool result))) =
      keyBytes "tool" + (1 + ((toolContents result).map fieldBytes).sum) := by
    show keyBytes "tool" + (object (resultTool result)).byteSize = _
    rw [htool]
  have hqualityField : fieldBytes ("quality", some (.object (resultQuality result context))) =
      keyBytes "quality" + (1 + ((qualityFacts result context).map fieldBytes).sum) := by
    show keyBytes "quality" + (object (resultQuality result context)).byteSize = _
    rw [hqual]
  simp only [messageContents, toolContents, List.map_cons, List.map_nil, List.sum_cons,
    List.sum_nil] at htoolField ⊢
  rw [htoolField, hqualityField, hresultField]
  omega

lemma optionNodes_map_string (text : Option String) :
    optionNodes (text.map Json.string) = one text := by
  cases text <;> rfl

lemma optionNodes_map_bool (flag : Option Bool) :
    optionNodes (flag.map Json.bool) = one flag := by
  cases flag <;> rfl

lemma nodeCount_jsonStrings (items : List String) :
    (jsonStrings items).nodeCount = 1 + items.length := by
  show (visitsItems 2 (items.map Json.string)).length + 1 = _
  rw [length_visitsItems, List.map_map, Nat.add_comm]
  refine congrArg (1 + ·) ?_
  induction items with
  | nil => rfl
  | cons item rest ih =>
    rw [List.map_cons, List.sum_cons, ih, List.length_cons]
    exact Nat.add_comm _ _

lemma nodeCount_resultMessage :
    (resultMessage result context).value.nodeCount = resultNodes result := by
  have hpaths : optionNodes (result.metadata.paths.map jsonStrings) =
      result.metadata.paths.elim 0 fun paths => 1 + paths.length := by
    cases result.metadata.paths with
    | none => rfl
    | some paths => exact nodeCount_jsonStrings paths
  have hlimits : optionNodes (some (jsonStrings result.metadata.pathsLimits)) =
      1 + result.metadata.pathsLimits.length := nodeCount_jsonStrings _
  have hflag : ∀ flag : Bool, optionNodes (some (.bool flag)) = 1 := fun _ => rfl
  have htext : ∀ text : String, optionNodes (some (.string text)) = 1 := fun _ => rfl
  have hqual : optionNodes (some (.object (resultQuality result context))) = _ :=
    nodeCount_built (resultQuality_built result context)
  have hfacts : optionNodes (some (.object (resultFacts result))) = _ :=
    nodeCount_built (resultFacts_built result)
  have htool : optionNodes (some (.object (resultTool result))) = _ :=
    nodeCount_built (resultTool_built result)
  rw [resultMessage_value, nodeCount_built (resultEntries_built result context)]
  simp only [qualityFacts, resultContents, toolContents, messageContents, List.map_cons,
    List.map_nil, List.sum_cons, List.sum_nil, optionNodes_map_string, optionNodes_map_bool,
    hpaths, hlimits, hflag, htext] at hqual hfacts htool ⊢
  rw [htool, hqual, hfacts]
  unfold resultNodes
  have hargs : optionNodes result.arguments = result.arguments.elim 0 nodeCount := rfl
  have hout : optionNodes result.outcome = result.outcome.elim 0 nodeCount := rfl
  omega

section Depth

variable {depth : Nat}

lemma depthFits_scalar {value : Json} (hvalue : value.visits depth = [depth])
    (h : depth ≤ PUBLIC_LIMITS.maxDepth) : DepthFits depth (some value) := by
  rintro found ⟨⟩ reached hrchd
  rw [hvalue] at hrchd
  cases List.mem_singleton.mp hrchd
  exact h

lemma depthFits_text (text : Option String) (h : depth ≤ PUBLIC_LIMITS.maxDepth) :
    DepthFits depth (text.map .string) := by
  cases text with
  | none => exact fun found hfound => nomatch hfound
  | some text => exact depthFits_scalar rfl h

lemma depthFits_flag (flag : Option Bool) (h : depth ≤ PUBLIC_LIMITS.maxDepth) :
    DepthFits depth (flag.map .bool) := by
  cases flag with
  | none => exact fun found hfound => nomatch hfound
  | some flag => exact depthFits_scalar rfl h

lemma depthFits_strings (items : List String) (h : depth + 1 ≤ PUBLIC_LIMITS.maxDepth) :
    DepthFits depth (some (jsonStrings items)) := by
  rintro found ⟨⟩ reached hrchd
  rcases List.mem_cons.mp hrchd with rfl | hrchd
  · exact (Nat.le_succ _).trans h
  · obtain ⟨value, hvalue, hrchd⟩ := mem_visitsItems.mp hrchd
    obtain ⟨item, -, rfl⟩ := List.mem_map.mp hvalue
    cases List.mem_singleton.mp hrchd
    exact h

lemma depthFits_paths (paths : Option (List String)) (h : depth + 1 ≤ PUBLIC_LIMITS.maxDepth) :
    DepthFits depth (paths.map jsonStrings) := by
  cases paths with
  | none => exact fun found hfound => nomatch hfound
  | some paths => exact depthFits_strings paths h

lemma depthFits_built {fields : List (String × Option Json)}
    (hbuilt : Built entries fields) (h : depth ≤ PUBLIC_LIMITS.maxDepth) :
    DepthFits depth (some (.object entries)) ↔
      ∀ field ∈ fields, DepthFits (depth + 1) field.2 := by
  constructor
  · intro hfits field hfield value hvalue reached hrchd
    exact hfits _ rfl _ ((mem_visits_built hbuilt).mpr (.inr ⟨field, hfield, value, hvalue, hrchd⟩))
  · rintro hfields found ⟨⟩ reached hrchd
    rcases (mem_visits_built hbuilt).mp hrchd with rfl | ⟨field, hfield, value, hvalue, hrchd⟩
    · exact h
    · exact hfields field hfield value hvalue reached hrchd

end Depth

lemma depthFits_quality : DepthFits 2 (some (.object (resultQuality result context))) := by
  rw [depthFits_built (resultQuality_built result context) (by decide)]
  simp only [qualityFacts, List.forall_mem_cons]
  have hflag : ∀ flag : Bool, DepthFits (2 + 1) (some (.bool flag)) :=
    fun _ => depthFits_scalar rfl (by decide)
  have htext : ∀ text : Option String, DepthFits (2 + 1) (text.map .string) :=
    fun text => depthFits_text text (by decide)
  exact ⟨hflag _, hflag _, hflag _, hflag _, hflag _, hflag _, hflag _, hflag _, hflag _,
    depthFits_strings _ (by decide), htext _, htext _, htext _, htext _, fun _ h => nomatch h⟩

lemma depthFits_facts :
    DepthFits 3 (some (.object (resultFacts result))) ↔ DepthFits 4 result.outcome := by
  rw [depthFits_built (resultFacts_built result) (by decide)]
  simp only [resultContents, List.forall_mem_cons]
  constructor
  · rintro ⟨-, -, hout, -⟩
    exact hout
  · intro hout
    exact ⟨depthFits_text _ (by decide), depthFits_scalar rfl (by decide), hout,
      fun _ h => nomatch h⟩

lemma depthFits_tool :
    DepthFits 2 (some (.object (resultTool result))) ↔
      DepthFits 3 result.arguments ∧ DepthFits 4 result.outcome := by
  rw [depthFits_built (resultTool_built result) (by decide), ← depthFits_facts]
  simp only [toolContents, List.forall_mem_cons]
  constructor
  · rintro ⟨-, -, hargs, hfacts, -⟩
    exact ⟨hargs, hfacts⟩
  · rintro ⟨hargs, hfacts⟩
    exact ⟨depthFits_text _ (by decide), depthFits_text _ (by decide), hargs, hfacts,
      depthFits_paths _ (by decide), depthFits_flag _ (by decide), fun _ h => nomatch h⟩

lemma depths_resultMessage :
    DepthFits 1 (some (resultMessage result context).value) ↔
      DepthFits 3 result.arguments ∧ DepthFits 4 result.outcome := by
  rw [resultMessage_value, depthFits_built (resultEntries_built result context) (by decide),
    ← depthFits_tool]
  simp only [messageContents, List.forall_mem_cons]
  have htext : ∀ text : String, DepthFits (1 + 1) (some (.string text)) :=
    fun _ => depthFits_scalar rfl (by decide)
  constructor
  · rintro ⟨-, -, -, -, htool, -⟩
    exact htool
  · intro htool
    exact ⟨htext _, htext _, htext _, htext _, htool, htext _, depthFits_quality result context,
      depthFits_text _ (by decide), depthFits_flag _ (by decide), fun _ h => nomatch h⟩

/-- **The message of a result fits exactly when its facts do.** -/
lemma resultMessage_fits_iff :
    (measureJson (resultMessage result context).value PUBLIC_LIMITS).isOk = true ↔
      FitsResult result context := by
  rw [measureJson_isOk_iff (by decide)]
  have hnodes := nodeCount_resultMessage result context
  have hbytes := byteSize_resultMessage result context
  constructor
  · intro h
    have hdepth : DepthFits 1 (some (resultMessage result context).value) := by
      rintro found ⟨⟩
      exact h.depth
    obtain ⟨hargs, hout⟩ := (depths_resultMessage result context).mp hdepth
    exact ⟨hargs, hout, hnodes.ge.trans h.nodes, hbytes.ge.trans h.bytes⟩
  · intro h
    have hdepth := (depths_resultMessage result context).mpr ⟨h.arguments, h.outcome⟩
    exact ⟨hdepth _ rfl, hnodes.le.trans h.nodes, hbytes.le.trans h.bytes⟩

end Sizes

/-! ### The rules that a result message meets -/

section Rules

variable (result : PublishedToolResult) (context : PublishedContext)

lemma isClosed_built {fields : List (String × Option Json)}
    (hbuilt : Built entries fields) {names : List String}
    (h : (fields.all fun field => names.contains field.1) = true) :
    isClosed (.object entries) names = true := by
  show (entries.all fun entry => names.contains entry.1) = true
  rw [hbuilt.all_iff]
  intro field hfield value _
  exact List.all_eq_true.mp h field hfield

lemma field_built {key : String} {value : Option Json} (h : entries.get? key = value) (p : Json → Bool) :
    field (.object entries) key p = value.all p := by
  show (entries.get? key).all p = _
  rw [h]

section

variable {key : String} {value : Option Json}

lemma get?_message (hmem : (key, value) ∈ messageContents result context) :
    (resultEntries result context).get? key = value :=
  (resultEntries_built result context).get? (by simp [messageContents]) hmem

lemma get?_tool (hmem : (key, value) ∈ toolContents result) :
    (resultTool result).get? key = value :=
  (resultTool_built result).get? (by simp [toolContents]) hmem

lemma get?_facts
    (hmem : (key, value) ∈ resultContents result) : (resultFacts result).get? key = value :=
  (resultFacts_built result).get? (by simp [resultContents]) hmem

lemma get?_quality (hmem : (key, value) ∈ qualityFacts result context) :
    (resultQuality result context).get? key = value :=
  (resultQuality_built result context).get? (by simp [qualityFacts]) hmem

end

lemma validateQuality_result :
    validateQuality (.object (resultQuality result context)) = .ok () := by
  have hbuilt := resultQuality_built result context
  unfold validateQuality
  rw [Except.bind_ok_iff]
  refine ⟨(), closed_ok_iff.mpr (isClosed_built hbuilt rfl), refuse_ok_iff.mpr ?_⟩
  rw [Bool.not_eq_false']
  show ((resultQuality result context).all fun fact => isQualityFact fact.1 fact.2) = true
  rw [hbuilt.all_iff]
  have hstrings : ∀ items : List String,
      (items.map Json.string).all (fun item => item.asStr.isSome) = true := by
    intro items
    rw [List.all_map]
    exact List.all_eq_true.mpr fun _ _ => rfl
  have htext : ∀ (key : String) (text : Option String),
      (∀ value, isQualityFact key (.string value) = true) →
        ∀ value ∈ text.map Json.string, isQualityFact key value = true := by
    rintro key text hkey value hvalue
    obtain ⟨found, -, rfl⟩ := Option.mem_map.mp hvalue
    exact hkey found
  simp only [qualityFacts, List.forall_mem_cons]
  refine ⟨?_, ?_, ?_, ?_, ?_, ?_, ?_, ?_, ?_, ?_, htext _ _ fun _ => rfl, htext _ _ fun _ => rfl,
    htext _ _ fun _ => rfl, htext _ _ fun _ => rfl, fun _ h => nomatch h⟩
  case refine_10 =>
    rintro value ⟨⟩
    exact hstrings _
  all_goals
    rintro value ⟨⟩
    rfl

lemma validateResult_facts :
    validateResult (.object (resultFacts result)) = .ok () ↔
      ∀ outcome ∈ result.outcome, validateOutcome outcome = .ok () := by
  have hstatus : (resultFacts result).get? "status" = some (.string (resultStatus result.status)) :=
    get?_facts result (by simp [resultContents])
  have hout : (resultFacts result).get? "outcome" = result.outcome :=
    get?_facts result (by simp [resultContents])
  have hbytes : (resultFacts result).get? "output_bytes" = none :=
    (resultFacts_built result).get?_of_notMem (by simp [resultContents])
  have hclosed : isClosed (.object (resultFacts result)) resultFields = true :=
    isClosed_built (resultFacts_built result) rfl
  have hknown : isStatus (resultStatus result.status) = true := by
    cases result.status <;> rfl
  rw [validateResult_ok_iff, field_built hbytes, get?_object, get?_object, hstatus, hout]
  constructor
  · rintro ⟨-, -, -, houtc⟩
    exact houtc
  · intro houtc
    exact ⟨hclosed, hknown, rfl, houtc⟩

lemma text?_built {key : String} {value : Option String}
    (h : entries.get? key = value.map .string) :
    text? (.object entries) key = value.filter fun text => !isBlank text := by
  unfold text?
  rw [get?_object, h]
  cases value <;> rfl

lemma validateTool_result :
    validateTool (.object (resultTool result)) "tool_result" = .ok () ↔
      (∀ name ∈ result.toolName, isBlank name = false) ∧
        (∀ category ∈ resultCategory result, isCategory category = true) ∧
        (∀ paths ∈ result.metadata.paths, ∀ path ∈ paths, isRepositoryPath path = true) ∧
        ∀ outcome ∈ result.outcome, validateOutcome outcome = .ok () := by
  have hname : (resultTool result).get? "name" = result.toolName.map .string :=
    get?_tool result (by simp [toolContents])
  have hcateg : (resultTool result).get? "category" = (resultCategory result).map .string :=
    get?_tool result (by simp [toolContents])
  have hflag : (resultTool result).get? "provider_executed" = result.providerExecuted.map .bool :=
    get?_tool result (by simp [toolContents])
  have hpaths : (resultTool result).get? "paths" = result.metadata.paths.map jsonStrings :=
    get?_tool result (by simp [toolContents])
  have hresult : (resultTool result).get? "result" = some (.object (resultFacts result)) :=
    get?_tool result (by simp [toolContents])
  have hcall : (resultTool result).get? "call_id" = none :=
    (resultTool_built result).get?_of_notMem (by simp [toolContents])
  have hclosed : isClosed (.object (resultTool result)) toolFields = true :=
    isClosed_built (resultTool_built result) rfl
  have hflags : (result.providerExecuted.map Json.bool).all (fun flag => flag.asBool.isSome) =
      true := by
    cases result.providerExecuted <;> rfl
  have hnames : ((result.toolName.map Json.string).isSome = true →
      (result.toolName.filter fun text => !isBlank text).isSome = true) ↔
        ∀ name ∈ result.toolName, isBlank name = false := by
    cases result.toolName with
    | none => exact iff_of_true (fun h => nomatch h) fun _ h => nomatch h
    | some name =>
      cases hblank : isBlank name <;> simp [Option.filter, hblank]
  have hcategories : (result.metadata.paths.map jsonStrings).all (fun paths =>
      paths.asArray.any fun items => items.all fun item => item.asStr.any isRepositoryPath) = true ↔
        ∀ paths ∈ result.metadata.paths, ∀ path ∈ paths, isRepositoryPath path = true := by
    cases result.metadata.paths with
    | none => exact iff_of_true rfl fun _ h => nomatch h
    | some paths =>
      show (paths.map Json.string).all (fun item => item.asStr.any isRepositoryPath) = true ↔ _
      rw [List.all_map, List.all_eq_true]
      simp only [Option.mem_some_iff, forall_eq', Function.comp_apply]
      rfl
  have hlisted : ((resultCategory result).map Json.string).all
      (fun category => category.asStr.any isCategory) = true ↔
        ∀ category ∈ resultCategory result, isCategory category = true := by
    cases resultCategory result with
    | none => exact iff_of_true rfl fun _ h => nomatch h
    | some category =>
      simp only [Option.mem_some_iff, forall_eq']
      rfl
  rw [validateTool_ok_iff, text?_built hname, field_built hcateg, field_built hflag,
    field_built hpaths, get?_object, get?_object, get?_object, hcall, hname, hresult, hnames,
    hcategories, hlisted]
  simp only [hclosed, hflags, Option.mem_some_iff, exists_eq_left', true_and,
    validateResult_facts, Option.isSome_none, Bool.false_eq_true, false_imp_iff]

lemma validateEnvelope_result [Platform] (hident : isBlank result.identity = false)
    (hagent : isBlank context.agentName = false) :
    validateEnvelope (resultMessage result context) "tool_result" = .ok () ↔
      ∀ model ∈ result.metadata.attribution.model, isModelIdentifier model = true := by
  have hget : ∀ {key : String} {value : Option Json},
      (key, value) ∈ messageContents result context →
        (resultEntries result context).get? key = value := get?_message result context
  have hid : (resultEntries result context).get? "id" = (some result.identity).map .string :=
    hget (by simp [messageContents])
  have hsource : (resultEntries result context).get? "source" =
      (some context.agentName).map .string := hget (by simp [messageContents])
  have hkind : (resultEntries result context).get? "kind" = (some "tool_result").map .string :=
    hget (by simp [messageContents])
  have hrole : (resultEntries result context).get? "role" = some (.string "tool") :=
    hget (by simp [messageContents])
  have hmodel : (resultEntries result context).get? "model" =
      result.metadata.attribution.model.map .string := hget (by simp [messageContents])
  have hmode : (resultEntries result context).get? "fast_mode" =
      result.metadata.attribution.fastMode.map .bool := hget (by simp [messageContents])
  have horder : (resultEntries result context).get? "native_order" =
      some (.string result.nativeOrder) := hget (by simp [messageContents])
  have htime : (resultEntries result context).get? "occurred_at" = none :=
    (resultEntries_built result context).get?_of_notMem (by simp [messageContents])
  have hclosed : isClosed (.object (resultEntries result context)) envelopeFields = true :=
    isClosed_built (resultEntries_built result context) rfl
  have hflags : (result.metadata.attribution.fastMode.map Json.bool).all
      (fun mode => mode.asBool.isSome) = true := by
    cases result.metadata.attribution.fastMode <;> rfl
  have hmodels : (result.metadata.attribution.model.map Json.string).all
      (fun model => model.asStr.any isModelIdentifier) = true ↔
        ∀ model ∈ result.metadata.attribution.model, isModelIdentifier model = true := by
    cases result.metadata.attribution.model with
    | none => exact iff_of_true rfl fun _ h => nomatch h
    | some model =>
      simp only [Option.mem_some_iff, forall_eq']
      rfl
  have hblank : isBlank "tool_result" = false := by decide
  have hkept : ∀ text : String, isBlank text = false →
      (some text).filter (fun text => !isBlank text) = some text := by
    intro text htext
    rw [Option.filter_some, htext]
    rfl
  rw [validateEnvelope_ok_iff, resultMessage_value, text?_built hid, text?_built hsource,
    text?_built hkind, field_built hmodel, field_built hmode, field_built htime,
    field_built horder, get?_object, hrole, hkept _ hident, hkept _ hagent, hkept _ hblank,
    hmodels]
  constructor
  · rintro ⟨-, -, -, -, -, hvalid, -⟩
    exact hvalid
  · intro hvalid
    exact ⟨hclosed, rfl, rfl, rfl, rfl, hvalid, hflags, rfl, rfl⟩

end Rules

/-! ### Sound results -/

/-- Facts of which a public message can be made. -/
structure SoundResult [Platform] (result : PublishedToolResult) (context : PublishedContext) :
    Prop where
  /-- A tool name is not blank. -/
  name : ∀ name ∈ result.toolName, isBlank name = false
  /-- A category that is not reviewed is one of the list. -/
  category : result.metadata.checkCategory = none →
    ∀ category ∈ result.category, isCategory category = true
  /-- The paths are repository-relative. -/
  paths : ∀ paths ∈ result.metadata.paths, ∀ path ∈ paths, isRepositoryPath path = true
  /-- The outcome has the fields and the types of a native outcome. -/
  outcome : ∀ outcome ∈ result.outcome, validateOutcome outcome = .ok ()
  /-- The model is a model identifier. -/
  model : ∀ model ∈ result.metadata.attribution.model, isModelIdentifier model = true
  /-- The facts keep the public limits. -/
  fits : FitsResult result context

lemma isCategory_asStr (category : ToolCategory) : isCategory category.asStr = true := by
  cases category <;> decide

lemma isCategory_result (result : PublishedToolResult) :
    (∀ category ∈ resultCategory result, isCategory category = true) ↔
      (result.metadata.checkCategory = none →
        ∀ category ∈ result.category, isCategory category = true) := by
  unfold resultCategory
  cases result.metadata.checkCategory with
  | none => exact ⟨fun h _ => h, fun h => h rfl⟩
  | some reviewed =>
    refine iff_of_true ?_ fun h => nomatch h
    rintro category ⟨⟩
    exact isCategory_asStr reviewed

variable {result : PublishedToolResult}

/-- **The message of a result is a public message exactly when its facts are sound.** -/
lemma validate_resultMessage_iff [Platform]
    {context : PublishedContext} (hident : isBlank result.identity = false)
    (hagent : isBlank context.agentName = false) :
    validatePublicMessage (resultMessage result context) "tool_result" = .ok () ↔
      SoundResult result context := by
  have hcont : (resultEntries result context).get? "content" = none :=
    (resultEntries_built result context).get?_of_notMem (by simp [messageContents])
  have hqual : (resultEntries result context).get? "quality" =
      some (.object (resultQuality result context)) := get?_message result context (by simp [messageContents])
  have htool : (resultEntries result context).get? "tool" =
      some (.object (resultTool result)) := get?_message result context (by simp [messageContents])
  rw [validatePublicMessage_ok_iff, validateEnvelope_result result context hident hagent,
    resultMessage_fits_iff, resultMessage_value, get?_object, get?_object, get?_object, hcont,
    hqual, htool]
  simp only [Option.mem_some_iff, forall_eq', exists_eq_left', validateQuality_result,
    validateTool_result, isCategory_result, true_and]
  constructor
  · rintro ⟨hfits, hmodel, hname, hcateg, hpaths, hout⟩
    exact ⟨hname, hcateg, hpaths, hout, hmodel, hfits⟩
  · intro h
    exact ⟨h.fits, h.model, h.name, h.category, h.paths, h.outcome⟩

/-! ### What the source admits -/

def publicMessage? : ObservationKind → Option (String × Message)
  | .userMessage message => some ("user_message", message)
  | .assistantMessage message => some ("assistant_message", message)
  | .toolCall message => some ("tool_call", message)
  | .toolResult message _ _ => some ("tool_result", message)
  | _ => none

def payloadIdentity? : PublishedEvidenceChange → Option String
  | .upsert result => some result.identity
  | .observationUpsert published => some published.identity
  | _ => none

/-- The availability flags of a quality object, each with the field that it speaks of. -/
def availability (value : Json) : List (String × Option Json) :=
  let tool := value.get? "tool"
  [("tool_name_available", tool.bind (·.get? "name")),
    ("category_available", tool.bind (·.get? "category")),
    ("arguments_available", tool.bind (·.get? "arguments")),
    ("result_content_available", (tool.bind (·.get? "result")).bind (·.get? "content")),
    ("paths_available", tool.bind (·.get? "paths"))]

/-- Each availability flag is true exactly when its field is present. -/
def FlagsAgree (value : Json) : Prop :=
  ∀ entry ∈ availability value, ∀ flag ∈ (value.get? "quality").bind (·.get? entry.1),
    flag.asBool = some true ↔ entry.2.isSome = true

lemma flags_result (result : PublishedToolResult) (context : PublishedContext) :
    FlagsAgree (resultMessage result context).value := by
  have htool : (resultEntries result context).get? "tool" =
      some (.object (resultTool result)) := get?_message result context (by simp [messageContents])
  have hqual : (resultEntries result context).get? "quality" =
      some (.object (resultQuality result context)) := get?_message result context (by simp [messageContents])
  have hname : (resultTool result).get? "name" = result.toolName.map .string :=
    get?_tool result (by simp [toolContents])
  have hcateg : (resultTool result).get? "category" = (resultCategory result).map .string :=
    get?_tool result (by simp [toolContents])
  have hargs : (resultTool result).get? "arguments" = result.arguments :=
    get?_tool result (by simp [toolContents])
  have hpaths : (resultTool result).get? "paths" = result.metadata.paths.map jsonStrings :=
    get?_tool result (by simp [toolContents])
  have hfacts : (resultTool result).get? "result" = some (.object (resultFacts result)) :=
    get?_tool result (by simp [toolContents])
  have hcont : (resultFacts result).get? "content" = result.content.map .string :=
    get?_facts result (by simp [resultContents])
  have hflag : ∀ {key : String} {there : Bool} {value : Option Json},
      (key, some (Json.bool there)) ∈ qualityFacts result context → value.isSome = there →
        ∀ flag ∈ (resultQuality result context).get? key,
          flag.asBool = some true ↔ value.isSome = true := by
    intro key there value hmem hthere flag hflag
    rw [get?_quality result context hmem] at hflag
    cases hflag
    rw [hthere]
    exact Option.some_inj
  unfold FlagsAgree availability
  rw [resultMessage_value]
  simp only [get?_object, htool, hqual, hname, hcateg, hargs, hpaths, hfacts, hcont,
    Option.bind_some, List.forall_mem_cons]
  exact ⟨hflag (by simp [qualityFacts]) Option.isSome_map,
    hflag (by simp [qualityFacts]) Option.isSome_map, hflag (by simp [qualityFacts]) rfl,
    hflag (by simp [qualityFacts]) Option.isSome_map,
    hflag (by simp [qualityFacts]) Option.isSome_map, fun _ h => nomatch h⟩

lemma source_result (result : PublishedToolResult) (context : PublishedContext) :
    ((resultMessage result context).value.index "source").asStr = some context.agentName := by
  have hsource : (resultEntries result context).get? "source" =
      some (.string context.agentName) := get?_message result context (by simp [messageContents])
  unfold Json.index
  rw [resultMessage_value, get?_object, hsource]
  rfl

section Admission

variable [Platform] (event : PublishedEvidenceEvent)

/-- A valid public message of its kind, under the identity and the source of its publication,
with true flags; a result can be a member of a cycle. -/
structure IsPublic (context : PublishedContext) (kind : String) (message : Message) : Prop where
  valid : validatePublicMessage message kind = .ok ()
  identity : payloadIdentity? event.change = some message.id
  source : (message.value.index "source").asStr = some context.agentName
  flags : FlagsAgree message.value
  member : kind = "tool_result" → admitMember context message = .ok ()

def KindIsPublic (observed : ObservationKind) : Prop :=
  ∀ kind message, publicMessage? observed = some (kind, message) →
    ∃ context, event.context = some context ∧ IsPublic event context kind message

/-- A payload becomes an observation whose message is public, or an unsafe update. -/
def AdmitsPublic : Prop :=
  match normalize event with
  | .observation _ _ _ _ draft => KindIsPublic event draft.kind
  | .unsafeUpdate _ _ _ => True
  | _ => payloadIdentity? event.change = none

/-- A final result that passes every check that the source makes of it. -/
structure ResultAdmitted (result : PublishedToolResult) (context : PublishedContext) : Prop where
  known : event.context = some context
  safe : isSafe context = true
  validity : result.validity = .valid
  branch : isBlank event.branch = false
  identity : isBlank result.identity = false
  order : isBlank result.nativeOrder = false
  final : result.finality = true

def typedMessage? : PublishedObservationPayload → Option (String × Message)
  | .userMessage message => some ("user_message", message)
  | .assistantMessage message => some ("assistant_message", message)
  | .toolCall message => some ("tool_call", message)
  | _ => none

/-- A typed message that passes every check that the source makes of it. -/
structure MessageAdmitted (published : PublishedObservation) (context : PublishedContext)
    (kind : String) (message : Message) : Prop where
  payload : typedMessage? published.payload = some (kind, message)
  known : event.context = some context
  safe : isSafe context = true
  validity : published.validity = .valid
  branch : isBlank event.branch = false
  identity : isBlank published.identity = false
  order : isBlank published.nativeOrder = false
  first : ∀ first ∈ published.firstEligiblePublication, first ≤ event.cursor
  bounds : (measureJson (.array [published.written, context.written]) PUBLIC_LIMITS).isOk = true
  session : (publicContext context).isOk = true
  eligible : published.eligible = true
  valid : validatePublicMessage message kind = .ok ()
  named : message.id = published.identity
  source : (message.value.index "source").asStr = some context.agentName

omit [Platform] in
/-- Results have a path of their own. -/
lemma typedMessage?_ne_result (payload : PublishedObservationPayload) (message : Message) :
    typedMessage? payload ≠ some ("tool_result", message) := by
  cases payload <;> simp [typedMessage?]

/-- An admitted result has sound facts; an admitted message has true flags. -/
def SoundPublication : Prop :=
  match event.change with
  | .upsert result => ∀ context, ResultAdmitted event result context → SoundResult result context
  | .observationUpsert published =>
    ∀ context kind message, MessageAdmitted event published context kind message →
      FlagsAgree message.value
  | _ => True

variable {context : PublishedContext} {published : PublishedObservation}

lemma member_result
    (h : validatePublicMessage (resultMessage result context) "tool_result" = .ok ()) :
    admitMember context (resultMessage result context) = .ok () := by
  have hkind : (resultEntries result context).get? "kind" = some (.string "tool_result") :=
    get?_message result context (by simp [messageContents])
  unfold admitMember
  rw [source_result, resultMessage_value, get?_object, hkind]
  show (validatePublicMessage (resultMessage result context) "tool_result" >>= fun _ => _) = _
  rw [h]
  have hsame : (some context.agentName != some context.agentName) = false := by
    rw [bne_self_eq_false]
  rw [hsame]
  rfl

lemma admitsPublic_result (hchange : event.change = .upsert result) :
    AdmitsPublic event ↔
      ∀ context, ResultAdmitted event result context → SoundResult result context := by
  unfold AdmitsPublic normalize
  rw [hchange]
  dsimp only
  unfold normalizeResult
  cases hctx : event.context.filter isSafe with
  | none =>
    refine iff_of_true trivial fun context hadmitted => ?_
    rw [hadmitted.known, Option.filter_some, hadmitted.safe] at hctx
    cases hctx
  | some context =>
    obtain ⟨hknown, hsafe⟩ := Option.filter_eq_some_iff.mp hctx
    dsimp only
    split_ifs with href
    · refine iff_of_true trivial fun context hadmitted => ?_
      simp [hadmitted.validity, hadmitted.branch, hadmitted.identity, hadmitted.order] at href
    · simp only [Bool.or_eq_true, bne_iff_ne, not_or, not_not, Bool.not_eq_true] at href
      obtain ⟨⟨⟨hvalidity, hbranch⟩, hident⟩, horder⟩ := href
      have hagent : isBlank context.agentName = false := by
        simp only [isSafe, Bool.and_eq_true, Bool.not_eq_true'] at hsafe
        exact hsafe.2
      have hvalid := validate_resultMessage_iff hident hagent
      show KindIsPublic event (if result.finality then _ else _) ↔ _
      cases hfinal : result.finality with
      | false =>
        refine iff_of_true (fun kind message h => by cases h) fun context hadmitted => ?_
        rw [hadmitted.final] at hfinal
        cases hfinal
      | true =>
        have hadmitted : ResultAdmitted event result context :=
          ⟨hknown, hsafe, hvalidity, hbranch, hident, horder, hfinal⟩
        constructor
        · intro hpublic other hother
          cases hknown.symm.trans hother.known
          obtain ⟨found, hfound, h⟩ := hpublic _ _ rfl
          exact hvalid.mp h.valid
        · rintro hsound kind message ⟨⟩
          have hmsg := hvalid.mpr (hsound context hadmitted)
          exact ⟨context, hknown, hmsg, by rw [hchange]; rfl, source_result result context,
            flags_result result context, fun _ => member_result hmsg⟩

lemma normalizeMessage_ok_iff
    {message : Message} {kind : String} {result : Unit} :
    normalizeMessage published context message kind = .ok result ↔
      validatePublicMessage message kind = .ok () ∧ message.id = published.identity ∧
        (message.value.index "source").asStr = some context.agentName := by
  unfold normalizeMessage
  rw [Except.bind_ok_iff]
  simp only [refuse_ok_iff, Bool.or_eq_false_iff, bne_eq_false_iff_eq]
  constructor
  · rintro ⟨_, hvalid, hnamed⟩
    exact ⟨hvalid, hnamed⟩
  · rintro ⟨hvalid, hnamed⟩
    exact ⟨(), hvalid, hnamed⟩

lemma normalizePayload_typed {published : PublishedObservation} {context : PublishedContext}
    {frozen : FrozenContext} {kind : String} {message : Message}
    (hpay : typedMessage? published.payload = some (kind, message)) :
    ∃ observed, publicMessage? observed = some (kind, message) ∧
      normalizePayload published context frozen =
        (normalizeMessage published context message kind).map fun _ => (observed, frozen) := by
  unfold normalizePayload
  cases hcase : published.payload with
  | userMessage message =>
    rw [hcase] at hpay
    cases hpay
    exact ⟨.userMessage message, rfl, rfl⟩
  | assistantMessage message =>
    rw [hcase] at hpay
    cases hpay
    exact ⟨.assistantMessage message, rfl, rfl⟩
  | toolCall message =>
    rw [hcase] at hpay
    cases hpay
    exact ⟨.toolCall message, rfl, rfl⟩
  | responseCycle cycle | sessionStart reason | sessionIdle epoch rev seconds time =>
    rw [hcase] at hpay
    cases hpay

lemma normalizePayload_untyped
    {frozen frozen' : FrozenContext} {observed : ObservationKind}
    (hpay : typedMessage? published.payload = none)
    (h : normalizePayload published context frozen = .ok (observed, frozen')) :
    publicMessage? observed = none := by
  unfold normalizePayload at h
  cases hcase : published.payload with
  | userMessage message | assistantMessage message | toolCall message =>
    rw [hcase] at hpay
    cases hpay
  | responseCycle cycle =>
    rw [hcase] at h
    unfold normalizeCycle at h
    obtain ⟨_, -, h⟩ := Except.bind_ok_iff.mp h
    obtain ⟨_, -, h⟩ := Except.bind_ok_iff.mp h
    obtain ⟨_, -, h⟩ := Except.bind_ok_iff.mp h
    obtain ⟨_, -, h⟩ := Except.bind_ok_iff.mp h
    obtain ⟨_, -, h⟩ := Except.bind_ok_iff.mp h
    cases h
    rfl
  | sessionStart reason =>
    rw [hcase] at h
    cases h
    rfl
  | sessionIdle epoch rev seconds time =>
    rw [hcase] at h
    obtain ⟨_, -, h⟩ := Except.bind_ok_iff.mp h
    cases h
    rfl

lemma admitsPublic_observation
    (hchange : event.change = .observationUpsert published) :
    AdmitsPublic event ↔
      ∀ context kind message, MessageAdmitted event published context kind message →
        FlagsAgree message.value := by
  unfold AdmitsPublic normalize
  rw [hchange]
  dsimp only
  unfold normalizeObservation
  cases hctx : event.context.filter isSafe with
  | none =>
    refine iff_of_true trivial fun context kind message hadmitted => ?_
    rw [hadmitted.known, Option.filter_some, hadmitted.safe] at hctx
    cases hctx
  | some context =>
    obtain ⟨hknown, hsafe⟩ := Option.filter_eq_some_iff.mp hctx
    dsimp only
    split_ifs with href hbounds
    · refine iff_of_true trivial fun other kind message hadmitted => ?_
      have hfirst : (published.firstEligiblePublication.any fun first =>
          decide (event.cursor < first)) = false := by
        rw [Option.any_eq_false]
        intro first hmem
        simpa using hadmitted.first first hmem
      simp [hadmitted.validity, hadmitted.branch, hadmitted.identity, hadmitted.order,
        hfirst] at href
    · refine iff_of_true trivial fun other kind message hadmitted => ?_
      cases hknown.symm.trans hadmitted.known
      rw [hadmitted.bounds] at hbounds
      cases hbounds
    · cases hsess : publicContext context with
      | error error =>
        refine iff_of_true trivial fun other kind message hadmitted => ?_
        cases hknown.symm.trans hadmitted.known
        have hok := hadmitted.session
        rw [hsess] at hok
        cases hok
      | ok frozen =>
        dsimp only
        simp only [Bool.or_eq_true, bne_iff_ne, not_or, not_not, Bool.not_eq_true,
          Option.any_eq_false, decide_eq_false_iff_not, Nat.not_lt] at href
        obtain ⟨⟨⟨⟨hvalidity, hbranch⟩, hident⟩, horder⟩, hfirst⟩ := href
        simp only [Bool.not_eq_true', Bool.not_eq_false] at hbounds
        have hpassed : ∀ {kind : String} {message : Message},
            typedMessage? published.payload = some (kind, message) → published.eligible = true →
              normalizeMessage published context message kind = .ok () →
                MessageAdmitted event published context kind message := by
          intro kind message hpay helig hmsg
          obtain ⟨hvalid, hnamed, hsource⟩ := normalizeMessage_ok_iff.mp hmsg
          exact ⟨hpay, hknown, hsafe, hvalidity, hbranch, hident, horder, hfirst, hbounds,
            by rw [hsess]; rfl, helig, hvalid, hnamed, hsource⟩
        have hkind : ∀ {kind : String} {message : Message},
            MessageAdmitted event published context kind message →
              ∃ observed, publicMessage? observed = some (kind, message) ∧
                observationKind published context frozen = .ok (observed, frozen) := by
          intro kind message hadmitted
          obtain ⟨observed, hobs, hpay⟩ :=
            @normalizePayload_typed _ _ context frozen _ _ hadmitted.payload
          refine ⟨observed, hobs, ?_⟩
          have hmsg : normalizeMessage published context message kind = .ok () :=
            normalizeMessage_ok_iff.mpr ⟨hadmitted.valid, hadmitted.named, hadmitted.source⟩
          unfold observationKind
          rw [if_pos hadmitted.eligible, hpay, hmsg]
          rfl
        cases hobs : observationKind published context frozen with
        | error error =>
          refine iff_of_true trivial fun other kind message hadmitted => ?_
          cases hknown.symm.trans hadmitted.known
          obtain ⟨observed, -, hok⟩ := hkind hadmitted
          rw [hok] at hobs
          cases hobs
        | ok pair =>
          obtain ⟨observed, frozen'⟩ := pair
          show KindIsPublic event observed ↔ _
          constructor
          · intro hpublic other kind message hadmitted
            cases hknown.symm.trans hadmitted.known
            obtain ⟨same, hsame, hok⟩ := hkind hadmitted
            rw [hok] at hobs
            cases hobs
            obtain ⟨_, -, h⟩ := hpublic kind message hsame
            exact h.flags
          · intro hsound kind message hmsg
            unfold observationKind at hobs
            split_ifs at hobs with helig
            · cases hpay : typedMessage? published.payload with
              | none =>
                rw [normalizePayload_untyped hpay hobs] at hmsg
                cases hmsg
              | some typed =>
                obtain ⟨kind', message'⟩ := typed
                obtain ⟨same, hsame, hok⟩ := @normalizePayload_typed _ _ context frozen _ _ hpay
                rw [hok, Except.map_ok_iff] at hobs
                obtain ⟨_, hpass, heq⟩ := hobs
                cases heq
                rw [hsame] at hmsg
                cases hmsg
                have hadmitted := hpassed hpay helig hpass
                refine ⟨context, hknown, hadmitted.valid, ?_, hadmitted.source,
                  hsound context kind message hadmitted, ?_⟩
                · rw [hchange, hadmitted.named]
                  rfl
                · rintro rfl
                  exact absurd hpay (typedMessage?_ne_result _ _)
            · cases hobs
              cases hmsg

/-- **Every message that the source admits is a public message, exactly for the publications
that are sound.** -/
theorem admits_public_messages_iff : AdmitsPublic event ↔ SoundPublication event := by
  cases hchange : event.change with
  | upsert result =>
    rw [admitsPublic_result event hchange]
    unfold SoundPublication
    rw [hchange]
  | observationUpsert published =>
    rw [admitsPublic_observation event hchange]
    unfold SoundPublication
    rw [hchange]
  | _ => simp only [AdmitsPublic, SoundPublication, normalize, hchange, payloadIdentity?]

end Admission

/-! ### A result without a name -/

/-- A main session of the agent `opencode`. -/
def namedSession : PublishedContext where
  requests := []
  sessionId := "s"
  agentName := "opencode"
  projectRoot := none
  version := "v"
  mainSession := true
  completeThroughEvent := true

def blankNameResult : PublishedToolResult where
  identity := "call/result"
  nativeOrder := "jsonl:4:0"
  firstTerminalPublication := none
  revision := 1
  toolName := some " "
  category := none
  metadata := {}
  arguments := none
  content := some "done"
  outcome := none
  providerExecuted := none
  status := .completed
  finality := true
  payloadComplete := true
  validity := .valid

def blankNameEvent : PublishedEvidenceEvent where
  cursor := 1
  sourceEvidenceVersion := none
  branch := "main"
  context := some namedSession
  change := .upsert blankNameResult

/-- The result of a tool with a blank name is admitted, and its message is no public message. -/
theorem blank_name_is_admitted : ¬@AdmitsPublic asciiPlatform blankNameEvent := by
  let _ := asciiPlatform
  rw [admitsPublic_result blankNameEvent rfl]
  intro h
  have hadmitted : ResultAdmitted blankNameEvent blankNameResult namedSession :=
    ⟨rfl, by decide, rfl, by decide, by decide, by decide, rfl⟩
  have hblank : isBlank " " = false := (h namedSession hadmitted).name " " rfl
  exact absurd hblank (by decide)

end Publication

end Antiburn
