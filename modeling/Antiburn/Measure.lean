/-
JSON size limits: nodes, depth and bytes of a serialized value.

Both passes stop at their limit.  `Fits` states a limit on the whole value, and
`measureJson_isOk_iff` says that the two passes together check exactly that;
everything about sizes is then arithmetic on `visits` and `byteSize`.
-/
import Antiburn.Json

namespace Antiburn

structure JsonLimits where
  maxBytes : Nat
  maxNodes : Nat
  maxDepth : Nat

structure JsonMeasurement where
  bytes : Nat
  nodes : Nat
  depth : Nat

inductive BoundedJsonError where
  | bytes (observed maximum : Nat)
  | nodes (observed maximum : Nat)
  | depth (observed maximum : Nat)
  | duplicateKey (key : String)
  | invalidJson (message : String)
  | serialization (message : String)

def BoundedJsonError.message : BoundedJsonError → String
  | bytes observed maximum => "JSON bytes " ++ toString observed ++ " exceed " ++
      toString maximum ++ "."
  | nodes observed maximum => "JSON values " ++ toString observed ++ " exceed " ++
      toString maximum ++ "."
  | depth observed maximum => "JSON depth " ++ toString observed ++ " exceeds " ++
      toString maximum ++ "."
  | duplicateKey key => "Duplicate JSON key: " ++ key ++ "."
  | invalidJson message | serialization message => message

/-! ### Nodes and depth -/

structure NodeCounter where
  nodes : Nat := 0
  depth : Nat := 0

def NodeCounter.charge (limits : JsonLimits) (counter : NodeCounter) (depth : Nat) :
    Except BoundedJsonError NodeCounter :=
  if limits.maxDepth < depth then .error (.depth depth limits.maxDepth)
  else if limits.maxNodes ≤ counter.nodes then
    .error (.nodes (counter.nodes + 1) limits.maxNodes)
  else .ok ⟨counter.nodes + 1, max counter.depth depth⟩

namespace Json

mutual

/-- Depths of a value and of all values in it, in the order they are serialized.
Keys add no value. -/
def visits (depth : Nat) : Json → List Nat
  | array items => depth :: visitsItems (depth + 1) items
  | object entries => depth :: visitsEntries (depth + 1) entries
  | _ => [depth]

@[inherit_doc visits]
def visitsItems (depth : Nat) : List Json → List Nat
  | [] => []
  | item :: rest => item.visits depth ++ visitsItems depth rest

@[inherit_doc visits]
def visitsEntries (depth : Nat) : List (String × Json) → List Nat
  | [] => []
  | (_, item) :: rest => item.visits depth ++ visitsEntries depth rest

end

/-! ### Bytes -/

def contentWrites (fragment : String) : List Char → List String
  | [] => if fragment.isEmpty then [] else [fragment]
  | c :: rest =>
    match jsonEscape c with
    | none => contentWrites (fragment.push c) rest
    | some escape =>
      (if fragment.isEmpty then [] else [fragment]) ++ escape :: contentWrites "" rest

def stringWrites (value : String) : List String :=
  "\"" :: (contentWrites "" value.toList ++ ["\""])

mutual

/-- The writes `serde_json` makes for a value, in order. -/
def writes : Json → List String
  | null => ["null"]
  | bool value => [if value then "true" else "false"]
  | number value => [value.text]
  | string value => stringWrites value
  | array items => "[" :: (writesItems true items ++ ["]"])
  | object entries => "\x7b" :: (writesEntries true entries ++ ["\x7d"])

@[inherit_doc writes]
def writesItems (first : Bool) : List Json → List String
  | [] => []
  | item :: rest => (if first then [] else [","]) ++ item.writes ++ writesItems false rest

@[inherit_doc writes]
def writesEntries (first : Bool) : List (String × Json) → List String
  | [] => []
  | (key, item) :: rest => (if first then [] else [","]) ++ stringWrites key ++ [":"] ++
      item.writes ++ writesEntries false rest

end

def writtenBytes (writes : List String) : Nat := (writes.map String.utf8ByteSize).sum

def byteSize (value : Json) : Nat := writtenBytes value.writes

end Json

/-- `ByteCounter::write`. -/
def writeBytes (maximum observed : Nat) (bytes : String) : Except BoundedJsonError Nat :=
  let observed := min (observed + bytes.utf8ByteSize) (2 ^ 64 - 1)
  if maximum < observed then .error (.bytes observed maximum) else .ok observed

def measureJson (value : Json) (limits : JsonLimits) : Except BoundedJsonError JsonMeasurement := do
  let counter ← (value.visits 1).foldlM (NodeCounter.charge limits) {}
  let bytes ← value.writes.foldlM (writeBytes limits.maxBytes) 0
  return ⟨bytes, counter.nodes, counter.depth⟩

/-! ### What the two passes check -/

structure Json.Fits (limits : JsonLimits) (value : Json) : Prop where
  depth : ∀ depth ∈ value.visits 1, depth ≤ limits.maxDepth
  nodes : (value.visits 1).length ≤ limits.maxNodes
  bytes : value.byteSize ≤ limits.maxBytes

lemma foldlM_charge_isOk_iff (limits : JsonLimits) (depths : List Nat) (counter : NodeCounter)
    (hcounter : counter.nodes ≤ limits.maxNodes) :
    (depths.foldlM (NodeCounter.charge limits) counter).isOk = true ↔
      (∀ depth ∈ depths, depth ≤ limits.maxDepth) ∧
        counter.nodes + depths.length ≤ limits.maxNodes := by
  induction depths generalizing counter with
  | nil => simpa [Except.isOk, Except.toBool, pure, Except.pure] using hcounter
  | cons depth rest ih =>
    rw [List.foldlM_cons, NodeCounter.charge]
    by_cases hdepth : limits.maxDepth < depth
    · rw [if_pos hdepth]
      refine iff_of_false (fun h => by cases h) fun h => ?_
      exact absurd (h.1 depth List.mem_cons_self) (Nat.not_le_of_gt hdepth)
    · rw [if_neg hdepth]
      by_cases hnodes : limits.maxNodes ≤ counter.nodes
      · rw [if_pos hnodes]
        refine iff_of_false (fun h => by cases h) fun h => ?_
        have := h.2
        rw [List.length_cons] at this
        omega
      · rw [if_neg hnodes]
        have hnext : (⟨counter.nodes + 1, max counter.depth depth⟩ : NodeCounter).nodes ≤
            limits.maxNodes := by
          show counter.nodes + 1 ≤ limits.maxNodes
          omega
        refine Iff.trans (ih _ hnext) ?_
        rw [List.forall_mem_cons, List.length_cons]
        constructor
        · rintro ⟨hrest, hlen⟩
          exact ⟨⟨Nat.not_lt.mp hdepth, hrest⟩, by simpa only [Nat.add_assoc, Nat.add_comm 1] using hlen⟩
        · rintro ⟨⟨-, hrest⟩, hlen⟩
          exact ⟨hrest, by simpa only [Nat.add_assoc, Nat.add_comm 1] using hlen⟩

lemma foldlM_writeBytes_isOk_iff {maximum observed : Nat} (writes : List String)
    (hmaximum : maximum < 2 ^ 64 - 1) (hobs : observed ≤ maximum) :
    (writes.foldlM (writeBytes maximum) observed).isOk = true ↔
      observed + Json.writtenBytes writes ≤ maximum := by
  induction writes generalizing observed with
  | nil => simpa [Except.isOk, Except.toBool, pure, Except.pure, Json.writtenBytes] using hobs
  | cons bytes rest ih =>
    have hsum : Json.writtenBytes (bytes :: rest) =
        bytes.utf8ByteSize + Json.writtenBytes rest := by
      rw [Json.writtenBytes, List.map_cons, List.sum_cons]
      rfl
    rw [List.foldlM_cons, writeBytes, hsum]
    by_cases h : maximum < min (observed + bytes.utf8ByteSize) (2 ^ 64 - 1)
    · simp only [if_pos h]
      refine iff_of_false (fun h => by cases h) ?_
      omega
    · simp only [if_neg h]
      -- below the limit the counter does not saturate
      have hexact : min (observed + bytes.utf8ByteSize) (2 ^ 64 - 1) =
          observed + bytes.utf8ByteSize := by omega
      rw [hexact]
      refine Iff.trans (ih (by omega)) ?_
      rw [Nat.add_assoc]

/-- **A value is measured exactly when the whole of it fits.** -/
lemma measureJson_isOk_iff {limits : JsonLimits} (hlimits : limits.maxBytes < 2 ^ 64 - 1)
    (value : Json) : (measureJson value limits).isOk = true ↔ value.Fits limits := by
  have hnodes := foldlM_charge_isOk_iff limits (value.visits 1) {} (Nat.zero_le _)
  have hbytes := foldlM_writeBytes_isOk_iff value.writes hlimits (Nat.zero_le _)
  rw [Nat.zero_add] at hnodes hbytes
  rw [measureJson]
  rcases hcount : (value.visits 1).foldlM (NodeCounter.charge limits) {} with error | counter
  · rw [hcount] at hnodes
    refine iff_of_false (fun h => by cases h) fun h => ?_
    exact absurd (hnodes.mpr ⟨h.depth, h.nodes⟩) (by simp [Except.isOk, Except.toBool])
  · rw [hcount] at hnodes
    obtain ⟨hdepth, hlen⟩ := hnodes.mp rfl
    rcases hwrite : value.writes.foldlM (writeBytes limits.maxBytes) 0 with error | bytes
    · rw [hwrite] at hbytes
      refine iff_of_false (fun h => by simp at h; cases h) fun h => ?_
      exact absurd (hbytes.mpr h.bytes) (by simp [Except.isOk, Except.toBool])
    · rw [hwrite] at hbytes
      refine iff_of_true ?_ ⟨hdepth, hlen, hbytes.mp rfl⟩
      simp [bind, Except.bind, pure, Except.pure, Except.isOk, Except.toBool]

/-! ### Sizes of an array -/

namespace Json

@[simp] lemma writtenBytes_nil : writtenBytes [] = 0 := rfl

@[simp] lemma writtenBytes_cons (write : String) (rest : List String) :
    writtenBytes (write :: rest) = write.utf8ByteSize + writtenBytes rest := by
  rw [writtenBytes, List.map_cons, List.sum_cons]
  rfl

@[simp] lemma writtenBytes_append (before after : List String) :
    writtenBytes (before ++ after) = writtenBytes before + writtenBytes after := by
  rw [writtenBytes, List.map_append, List.sum_append]
  rfl

lemma visitsItems_nil (depth : Nat) : visitsItems depth [] = [] := rfl

lemma visitsItems_cons (depth : Nat) (item : Json) (rest : List Json) :
    visitsItems depth (item :: rest) = item.visits depth ++ visitsItems depth rest := rfl

lemma visits_pos (depth : Nat) (value : Json) : 0 < (value.visits depth).length := by
  cases value <;> simp [visits]

lemma length_visitsItems (depth : Nat) (items : List Json) :
    (visitsItems depth items).length = (items.map fun item => (item.visits depth).length).sum := by
  induction items with
  | nil => rfl
  | cons item rest ih =>
    rw [visitsItems_cons, List.length_append, ih, List.map_cons, List.sum_cons]

lemma mem_visitsItems {depth d : Nat} {items : List Json} :
    d ∈ visitsItems depth items ↔ ∃ item ∈ items, d ∈ item.visits depth := by
  induction items with
  | nil => simp [visitsItems_nil]
  | cons item rest ih => simp [visitsItems_cons, ih]

lemma writtenBytes_writesItems_false (items : List Json) :
    writtenBytes (writesItems false items) = (items.map fun item => item.byteSize + 1).sum := by
  induction items with
  | nil => rfl
  | cons item rest ih =>
    have hcomma : ",".utf8ByteSize = 1 := rfl
    simp only [writesItems, Bool.false_eq_true, if_false, writtenBytes_append, writtenBytes_cons,
      writtenBytes_nil, hcomma, ih, List.map_cons, List.sum_cons, byteSize]
    omega

lemma writtenBytes_writesItems_true (items : List Json) :
    writtenBytes (writesItems true items) = (items.map fun item => item.byteSize + 1).sum - 1 := by
  cases items with
  | nil => rfl
  | cons item rest =>
    simp only [writesItems, if_true, writtenBytes_append, writtenBytes_nil,
      writtenBytes_writesItems_false, List.map_cons, List.sum_cons, byteSize]
    omega

end Json

end Antiburn
