/-
Runtime identities, observations, frozen inputs and current inventories.

The newtypes of the source over `String` and `u64` are abbreviations here.
Dependency lists are sorted by the derived order of the source: the variant,
then its fields from left to right.
-/
import Antiburn.Condition
import Mathlib

namespace Antiburn

abbrev ObservationPosition := Nat

/-- Durable outbox sequence of one committed source publication. -/
abbrev PublicationCursor := Nat

abbrev NativeOrderKey := String

/-- A stable branch identity supplied by the source adapter. -/
abbrev BranchId := String

/-- Source version attached to one immutable observation. -/
abbrev EvidenceVersion := String

inductive RunScope where
  | live
  | replay (identity : String)
  deriving DecidableEq

/-- Runtime isolation boundary.  An empty working directory means unknown. -/
structure ActivationScope where
  environment : String
  sessionCwd : String
  run : RunScope
  deriving DecidableEq

structure ActivationId where
  scope : ActivationScope
  definitionId : String
  generation : Nat
  deriving DecidableEq

/-- An effective ready definition bound to one activation scope and source boundary. -/
structure EffectiveActivation where
  id : ActivationId
  compiled : CompiledCheck
  bootstrapObservationPosition : ObservationPosition
  bootstrapPublication : PublicationCursor

/-- A normalized message available to conditions and decision inputs. -/
structure Message where
  id : String
  value : Json

inductive EvidenceDependency where
  | message (id : String) (version : EvidenceVersion)
  | membershipThrough (position : ObservationPosition)
  | context (id : String) (version : EvidenceVersion)
  | sourceEvidence (id : String) (version : EvidenceVersion)
  | sessionActivity (attachmentEpoch : String) (activityRevision : Nat)
  deriving DecidableEq

namespace EvidenceDependency

/-- Variant and fields, in the order the derived comparison reads them. -/
def sortKey : EvidenceDependency → Nat × String × String × Nat
  | message id version => (0, id, version, 0)
  | membershipThrough position => (1, "", "", position)
  | context id version => (2, id, version, 0)
  | sourceEvidence id version => (3, id, version, 0)
  | sessionActivity epoch revision => (4, epoch, "", revision)

def cmp (a b : EvidenceDependency) : Ordering :=
  let (tag, first, second, number) := a.sortKey
  let (tag', first', second', number') := b.sortKey
  (compare tag tag').then ((compare first first').then
    ((compare second second').then (compare number number')))

def sortDedup (dependencies : List EvidenceDependency) : List EvidenceDependency :=
  (dependencies.insertionSort fun a b => (cmp a b).isLE = true).destutter (· ≠ ·)

end EvidenceDependency

structure FrozenContext where
  value : Json
  dependencies : List EvidenceDependency

/-- The normalized event kind that drives selection. -/
inductive ObservationKind where
  | userMessage (message : Message)
  | assistantMessage (message : Message)
  | toolCall (message : Message)
  | toolResult (message : Message) (category status : String)
  | turnEnd (turn : Json)
  | sessionStart (reason : SessionStartReason)
  | sessionIdle (attachmentEpoch : String) (activityRevision idleSeconds : Nat)
      (lastActivityAtMs : Option Int)
  | other

/-- Retained for ordering only. -/
def ObservationKind.isOther : ObservationKind → Bool
  | other => true
  | _ => false

def ObservationKind.message? : ObservationKind → Option Message
  | userMessage message | assistantMessage message | toolCall message
  | toolResult message _ _ => some message
  | _ => none

structure ObservationDraft where
  branch : BranchId
  nativeOrder : NativeOrderKey
  firstTerminalPublication : Option PublicationCursor
  firstEligiblePublication : Option PublicationCursor
  version : EvidenceVersion
  kind : ObservationKind
  context : FrozenContext
  complete : Bool

structure Observation extends ObservationDraft where
  position : ObservationPosition

/-- Assign a position that the store must commit with its source page. -/
def ObservationDraft.commit (draft : ObservationDraft) (position : ObservationPosition) :
    Observation := { draft with position }

/-- An immutable candidate prepared from one event or rolling message window. -/
structure FrozenCandidate where
  activation : ActivationId
  branch : BranchId
  triggerPosition : ObservationPosition
  messages : List Message
  context : FrozenContext
  dependencies : List EvidenceDependency
  fingerprint : Vector UInt8 32

/-! ### Current inventories -/

structure InstructionScope where
  root : Option String
  globs : List String

/-- Current instruction text and its supported scope at collection time. -/
structure InstructionRecord where
  path : String
  content : String
  scope : InstructionScope
  observedAt : String

structure SkillRecord where
  name : String
  description : String
  path : String

/-- One bounded current inventory.  Missing arrays are unavailable, not empty. -/
structure InventorySnapshot where
  instructions : Option (List InstructionRecord) := none
  instructionsComplete : Bool := false
  instructionsLimits : List String := []
  skills : Option (List SkillRecord) := none
  skillsComplete : Bool := false
  skillsLimits : List String := []
  snapshotRevision : Option String := none

structure CurrentInventories where
  global : InventorySnapshot := {}
  repo : InventorySnapshot := {}

def Object.ofFields (fields : List (String × Json)) : Object := Object.extend [] fields

def jsonStrings (items : List String) : Json := .array (items.map .string)

def InstructionScope.toJson (scope : InstructionScope) : Json :=
  .object (Object.ofFields [("root", scope.root.elim .null .string), ("globs", jsonStrings scope.globs)])

def InstructionRecord.toJson (record : InstructionRecord) : Json :=
  .object (Object.ofFields [("path", .string record.path), ("content", .string record.content),
    ("scope", record.scope.toJson), ("observed_at", .string record.observedAt)])

def SkillRecord.toJson (record : SkillRecord) : Json :=
  .object (Object.ofFields [("name", .string record.name), ("description", .string record.description),
    ("path", .string record.path)])

/-- Serialized fields of a snapshot; missing arrays and revisions are omitted. -/
def InventorySnapshot.fields (snapshot : InventorySnapshot) : List (String × Json) :=
  (snapshot.instructions.map fun items =>
    ("instructions", .array (items.map InstructionRecord.toJson))).toList ++
  [("instructions_complete", .bool snapshot.instructionsComplete),
    ("instructions_limits", jsonStrings snapshot.instructionsLimits)] ++
  (snapshot.skills.map fun items => ("skills", .array (items.map SkillRecord.toJson))).toList ++
  [("skills_complete", .bool snapshot.skillsComplete),
    ("skills_limits", jsonStrings snapshot.skillsLimits)] ++
  (snapshot.snapshotRevision.map fun revision =>
    ("snapshot_revision", .string revision)).toList

def inventoryFields : List String :=
  ["instructions", "instructions_complete", "instructions_limits", "skills", "skills_complete",
    "skills_limits", "snapshot_revision"]

/-- Replace the inventory fields of one scope.  `none` is the panic of the
source on a scope that is present and no object. -/
def mergeScope (context : Object) (scope : String) (snapshot : InventorySnapshot) :
    Option Object :=
  match (context.get? scope).getD (.object []) with
  | .object root =>
    let root := inventoryFields.foldl Object.remove root
    some (context.insert scope (.object (root.extend snapshot.fields)))
  | _ => none

/-- `CurrentInventories::merge_into`; `none` where the source panics. -/
def CurrentInventories.mergeInto (inventories : CurrentInventories) (context : Json) :
    Option Json :=
  match context with
  | .object entries => do
    let entries ← mergeScope entries "global" inventories.global
    let entries ← mergeScope entries "repo" inventories.repo
    return .object entries
  | _ => none

end Antiburn
