/-
Durable source progress and its versioned checkpoint document.

A codec is a JSON writer and reader together with the law that the reader takes
back what the writer wrote; the codec of a structure is put together from those
of its fields.  Structures are read from their object form, the one that is
written.
-/
import Antiburn.Selection

namespace Antiburn

/-! ### Codecs -/

/-- A writer and a reader of JSON values, with the round-trip law. -/
structure JsonCodec (α : Type) where
  encode : α → Json
  decode : Json → Option α
  roundtrip : ∀ value, decode (encode value) = some value

namespace JsonCodec

variable {α β : Type}

lemma isDigit_of_mem_toString {n : Nat} {c : Char} (h : c ∈ (toString n).toList) :
    c.isDigit = true :=
  Nat.isDigit_of_mem_toDigits (by decide) (by decide) (Nat.toList_repr ▸ h)

lemma asU64_ofNat (n : Nat) : (Number.ofNat n).asU64 = some n := by
  have hchars : (toString n).toList = Nat.toDigits 10 n := Nat.toList_repr
  have hdigits : (toString n).toList.all Char.isDigit = true :=
    List.all_eq_true.mpr fun _ => isDigit_of_mem_toString
  have hvalue : Number.digitsValue (toString n).toList = n := by
    rw [hchars, Number.digitsValue]
    have h := Nat.ofDigitChars_toDigits (n := n) (show 1 < 10 by decide) (Nat.le_refl 10)
    rw [Nat.ofDigitChars_eq_foldl] at h
    simpa only [Nat.mul_comm] using h
  rw [Number.asU64, Number.ofNat, if_pos hdigits, hvalue]

def string : JsonCodec String where
  encode := .string
  decode := Json.asStr
  roundtrip _ := rfl

def bool : JsonCodec Bool where
  encode := .bool
  decode := Json.asBool
  roundtrip _ := rfl

/-- Unsigned machine integers. -/
def u64 : JsonCodec Nat where
  encode n := .number (.ofNat n)
  decode
    | .number number => number.asU64
    | _ => none
  roundtrip := asU64_ofNat

lemma mapM_roundtrip {f : α → β} {g : β → Option α} (h : ∀ a, g (f a) = some a)
    (items : List α) : (items.map f).mapM g = some items := by
  induction items with
  | nil => rfl
  | cons item rest ih => simp [h, ih]

def list (codec : JsonCodec α) : JsonCodec (List α) where
  encode items := .array (items.map codec.encode)
  decode value := value.asArray.bind (·.mapM codec.decode)
  roundtrip items := mapM_roundtrip codec.roundtrip items

/-- A tuple is an array of its two components. -/
def pair (first : JsonCodec α) (second : JsonCodec β) : JsonCodec (α × β) where
  encode value := .array [first.encode value.1, second.encode value.2]
  decode
    | .array [a, b] => do
      let a ← first.decode a
      let b ← second.decode b
      return (a, b)
    | _ => none
  roundtrip value := by simp [first.roundtrip, second.roundtrip]

def map (codec : JsonCodec α) : JsonCodec (Std.ExtTreeMap String α) where
  encode entries := .object (entries.toList.map fun entry => (entry.1, codec.encode entry.2))
  decode value := value.asObject.bind fun entries =>
    (entries.mapM fun entry => (codec.decode entry.2).map (entry.1, ·)).map
      (Std.ExtTreeMap.ofList · compare)
  roundtrip entries := by
    have hitems : (entries.toList.map fun entry => (entry.1, codec.encode entry.2)).mapM
        (fun entry => (codec.decode entry.2).map (entry.1, ·)) = some entries.toList :=
      mapM_roundtrip (fun entry => by rw [codec.roundtrip]; rfl) entries.toList
    simp only [Json.asObject_object, Option.bind_some, hitems, Option.map_some,
      Std.ExtTreeMap.ofList_toList_self]

def field (codec : JsonCodec α) (entries : Object) (name : String) : Option α :=
  (entries.get? name).bind codec.decode

/-- A field with a default (`#[serde(default)]`). -/
def fieldD (codec : JsonCodec α) (entries : Object) (name : String) (default : α) : Option α :=
  match entries.get? name with
  | none => some default
  | some value => codec.decode value

def named (name : α → String) (variants : List α)
    (h : ∀ value, variants.find? (name · == name value) = some value) : JsonCodec α where
  encode value := .string (name value)
  decode value := value.asStr.bind fun text => variants.find? (name · == text)
  roundtrip := h

end JsonCodec

/-! ### Branch selections and seen results -/

def AttributionScope.name : AttributionScope → String
  | message => "Message"
  | turn => "Turn"
  | session => "Session"

def FilterField.name : FilterField → String
  | model => "Model"
  | fastMode => "FastMode"
  | paths => "Paths"
  | pathsIgnore => "PathsIgnore"

def FilterReason.name : FilterReason → String
  | unavailable => "Unavailable"
  | incomplete => "Incomplete"
  | invalid => "Invalid"
  | knownEmpty => "KnownEmpty"
  | noMatch => "NoMatch"
  | ignoredPath => "IgnoredPath"
  | limitExceeded => "LimitExceeded"

def ResultMembership.name : ResultMembership → String
  | unknown => "Unknown"
  | historical => "Historical"
  | excluded => "Excluded"
  | selected => "Selected"
  | retired => "Retired"
  | removed => "Removed"

namespace JsonCodec

def scope : JsonCodec AttributionScope :=
  named AttributionScope.name [.message, .turn, .session] (by rintro (_ | _ | _) <;> decide)

def filterField : JsonCodec FilterField :=
  named FilterField.name [.model, .fastMode, .paths, .pathsIgnore]
    (by rintro (_ | _ | _ | _) <;> decide)

def filterReason : JsonCodec FilterReason :=
  named FilterReason.name
    [.unavailable, .incomplete, .invalid, .knownEmpty, .noMatch, .ignoredPath, .limitExceeded]
    (by rintro (_ | _ | _ | _ | _ | _ | _) <;> decide)

def membership : JsonCodec ResultMembership :=
  named ResultMembership.name [.unknown, .historical, .excluded, .selected, .retired, .removed]
    (by rintro (_ | _ | _ | _ | _ | _) <;> decide)

def filterDiagnostic : JsonCodec FilterDiagnostic where
  encode value := .object (Object.ofFields
    [("field", filterField.encode value.field), ("reason", filterReason.encode value.reason),
      ("scope", scope.encode value.scope), ("limits", (list string).encode value.limits)])
  decode value := do
    let entries ← value.asObject
    return {
      field := ← filterField.field entries "field"
      reason := ← filterReason.field entries "reason"
      scope := ← scope.field entries "scope"
      limits := ← (list string).field entries "limits" }
  roundtrip value := by
    simp [field, Object.ofFields, Object.extend, Object.get?_insert, roundtrip]

def message : JsonCodec Message where
  encode value := .object (Object.ofFields
    [("id", string.encode value.id), ("value", value.value)])
  decode value := do
    let entries ← value.asObject
    return { id := ← string.field entries "id", value := ← entries.get? "value" }
  roundtrip value := by
    simp [field, Object.ofFields, Object.extend, Object.get?_insert, roundtrip]

def selectedMessage : JsonCodec SelectedMessage where
  encode value := .object (Object.ofFields
    [("version", string.encode value.version),
      ("native_order", string.encode value.nativeOrder),
      ("message", message.encode value.message), ("complete", bool.encode value.complete)])
  decode value := do
    let entries ← value.asObject
    return {
      version := ← string.field entries "version"
      nativeOrder := ← string.field entries "native_order"
      message := ← message.field entries "message"
      complete := ← bool.field entries "complete" }
  roundtrip value := by
    simp [field, Object.ofFields, Object.extend, Object.get?_insert, roundtrip]

/-- An optional value; `null` reads as none. -/
def optional (codec : JsonCodec α) (value : Json) : Option (Option α) :=
  match value with
  | .null => some none
  | value => (codec.decode value).map some

def branchSelection : JsonCodec BranchSelection where
  encode value := .object (Object.ofFields (
    [("results", (list selectedMessage).encode value.results),
      ("coverage_complete", bool.encode value.coverageComplete),
      ("identity_limit_reached", bool.encode value.identityLimitReached)] ++
    (value.lastFilterDiagnostic.map fun diagnostic =>
      ("last_filter_diagnostic", filterDiagnostic.encode diagnostic)).toList))
  decode value := do
    let entries ← value.asObject
    return {
      results := ← (list selectedMessage).field entries "results"
      coverageComplete := ← bool.field entries "coverage_complete"
      identityLimitReached := ← bool.fieldD entries "identity_limit_reached" false
      lastFilterDiagnostic := ← ((entries.get? "last_filter_diagnostic").elim (some none)
        filterDiagnostic.optional) }
  roundtrip value := by
    obtain ⟨results, coverageComplete, identityLimitReached, diagnostic⟩ := value
    cases diagnostic with
    | none =>
      simp [field, fieldD, Object.ofFields, Object.extend, Object.get?_insert, roundtrip]
    | some diagnostic =>
      have hread : filterDiagnostic.optional (filterDiagnostic.encode diagnostic) =
          some (some diagnostic) := congrArg (Option.map some) (filterDiagnostic.roundtrip _)
      simp [field, fieldD, Object.ofFields, Object.extend, Object.get?_insert, roundtrip, hread]

def seenResult : JsonCodec SeenResult where
  encode value := .object (Object.ofFields (
    [("terminal_seen", bool.encode value.terminalSeen), ("revision", u64.encode value.revision),
      ("version", string.encode value.version),
      ("native_order", string.encode value.nativeOrder)] ++
    if value.membership = .unknown then []
    else [("membership", membership.encode value.membership)]))
  decode value := do
    let entries ← value.asObject
    return {
      terminalSeen := ← bool.field entries "terminal_seen"
      revision := ← u64.field entries "revision"
      version := ← string.field entries "version"
      nativeOrder := ← string.field entries "native_order"
      membership := ← membership.fieldD entries "membership" .unknown }
  roundtrip value := by
    obtain ⟨terminalSeen, revision, version, nativeOrder, known⟩ := value
    by_cases h : known = .unknown
    · simp [field, fieldD, Object.ofFields, Object.extend, Object.get?_insert, roundtrip, h]
    · simp [field, fieldD, Object.ofFields, Object.extend, Object.get?_insert, roundtrip, h]

def resultKey : JsonCodec ResultKey where
  encode key := (pair string string).encode (key.branch, key.identity)
  decode value := ((pair string string).decode value).map fun key => ⟨key.1, key.2⟩
  roundtrip key := by rw [(pair string string).roundtrip]; rfl

end JsonCodec

/-! ### Source progress -/

structure StoreError where
  message : String
  deriving DecidableEq

structure SourceProgress where
  publicationCursor : PublicationCursor := 0
  observationPosition : ObservationPosition := 0
  selection : SelectionState := {}

/-- Durable cursor values expected before a source-page transaction. -/
structure SourceProgressHead where
  publicationCursor : PublicationCursor
  observationPosition : ObservationPosition
  checkpointFingerprint : Vector UInt8 32
  deriving DecidableEq

namespace SourceProgress

def document (progress : SourceProgress) : Json :=
  .object (Object.ofFields
    [("version", JsonCodec.u64.encode 1),
      ("publication_cursor", JsonCodec.u64.encode progress.publicationCursor),
      ("observation_position", JsonCodec.u64.encode progress.observationPosition),
      ("branches", JsonCodec.branchSelection.map.encode progress.selection.branches),
      ("seen_results", (JsonCodec.resultKey.pair JsonCodec.seenResult).list.encode
        progress.selection.seenResults.toList)])

def encode (progress : SourceProgress) : String := progress.document.render

def checkpointFields : List String :=
  ["version", "publication_cursor", "observation_position", "branches", "seen_results"]

/-- A checkpoint of any 32-bit version. -/
def readDocument (value : Json) : Option (Nat × SourceProgress) := do
  let entries ← value.asObject
  guard (entries.all fun entry => checkpointFields.contains entry.1)
  let version ← (JsonCodec.u64.field entries "version").filter (· < 2 ^ 32)
  let publicationCursor ← JsonCodec.u64.field entries "publication_cursor"
  let observationPosition ← JsonCodec.u64.field entries "observation_position"
  let branches ← JsonCodec.branchSelection.map.field entries "branches"
  let seenResults ←
    (JsonCodec.resultKey.pair JsonCodec.seenResult).list.field entries "seen_results"
  return (version, {
    publicationCursor
    observationPosition
    selection := { branches, seenResults := .ofList seenResults compare } })

/-- Restores the exact orders; unknown versions fail closed. -/
def ofDocument (value : Option Json) : Except StoreError SourceProgress :=
  match value.bind readDocument with
  | none => .error ⟨"invalid selector checkpoint"⟩
  | some (version, progress) =>
    if version ≠ 1 then .error ⟨"unsupported selector checkpoint version"⟩ else .ok progress

lemma document_fields (progress : SourceProgress) :
    ∃ entries : Object, progress.document = .object entries ∧
      (entries.all fun entry => checkpointFields.contains entry.1) = true := by
  refine ⟨_, rfl, Object.all_keys_extend (p := checkpointFields.contains) ?_ rfl⟩
  intro entry hentry
  simp only [List.mem_cons, List.not_mem_nil, or_false] at hentry
  rcases hentry with rfl | rfl | rfl | rfl | rfl <;> rfl

lemma readDocument_document (progress : SourceProgress) :
    readDocument progress.document = some (1, progress) := by
  obtain ⟨entries, hents, hfields⟩ := progress.document_fields
  have hget : ∀ name, entries.get? name = progress.document.get? name := by
    intro name
    rw [hents]
    rfl
  rw [hents, readDocument]
  simp only [Json.asObject_object, Option.bind_eq_bind, Option.bind_some, hfields, guard, if_true]
  simp [JsonCodec.field, hget, document, Object.ofFields, Object.extend, Object.get?_insert,
    JsonCodec.roundtrip, Std.ExtTreeMap.ofList_toList_self, Option.filter]

/-- **A checkpoint reads back as the progress it was written from.** -/
lemma ofDocument_document (progress : SourceProgress) :
    ofDocument (some progress.document) = .ok progress := by
  unfold ofDocument
  rw [Option.bind_some, readDocument_document]
  rfl

section Text

variable [Platform]

def decode (text : String) : Except StoreError SourceProgress :=
  ofDocument (Platform.readJson text).value

/-- Returns the compare-and-swap token for one source-page transaction. -/
def head (progress : SourceProgress) : SourceProgressHead where
  publicationCursor := progress.publicationCursor
  observationPosition := progress.observationPosition
  checkpointFingerprint := Platform.sha256 (textBytes progress.encode)

lemma decode_encode (progress : SourceProgress)
    (h : (Platform.readJson progress.encode).value = some progress.document) :
    decode progress.encode = .ok progress := by
  rw [decode, h, ofDocument_document]

end Text

end SourceProgress

end Antiburn
