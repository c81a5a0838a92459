/-
Strict JSON decoding with limits on bytes, values and depth.

The decoder walks the document that `serde_json` presents of a text, counts each
value before it is read, and refuses repeated keys.  A `JsonSyntax` is what it is
shown: a tree with a fault at the place where the text stops to be a document.
`decodeValue_eq_ok` says what a whole walk checks.
-/
import Antiburn.JsonReader
import Antiburn.Lib.Except
import Mathlib

namespace Antiburn

/-! ### What is shown of a text -/

/-- A value of a text, with all entries of an object in their order.  An array or object
that breaks off has a fault behind its last part. -/
inductive JsonSyntax where
  | null
  | bool (value : Bool)
  | number (value : Number)
  | string (value : String)
  | array (items : List JsonSyntax) (fault : Option String)
  | object (entries : List (String × JsonSyntax)) (fault : Option String)
  | invalid (message : String)

structure JsonDocument where
  root : JsonSyntax
  fault : Option String

/-! ### The decoder -/

def decodeScalar (limits : JsonLimits) (depth : Nat) (counter : NodeCounter) (value : Json) :
    Except BoundedJsonError (Json × NodeCounter) := do
  let counter ← counter.charge limits depth
  return (value, counter)

mutual

/-- `ValueSeed` on a value: count it, then read it. -/
def decodeValue (limits : JsonLimits) (depth : Nat) (counter : NodeCounter) :
    JsonSyntax → Except BoundedJsonError (Json × NodeCounter)
  | .null => decodeScalar limits depth counter .null
  | .bool value => decodeScalar limits depth counter (.bool value)
  | .number value => decodeScalar limits depth counter (.number value)
  | .string value => decodeScalar limits depth counter (.string value)
  | .array items fault => do
    let counter ← counter.charge limits depth
    let (values, counter) ← decodeItems limits (depth + 1) counter items
    match fault with
    | some message => throw (.invalidJson message)
    | none => return (.array values, counter)
  | .object entries fault => do
    let counter ← counter.charge limits depth
    let (fields, counter) ← decodeEntries limits (depth + 1) [] counter entries
    match fault with
    | some message => throw (.invalidJson message)
    | none => return (.object fields, counter)
  | .invalid message => do
    let _ ← counter.charge limits depth
    throw (.invalidJson message)

/-- `visit_seq`. -/
def decodeItems (limits : JsonLimits) (depth : Nat) (counter : NodeCounter) :
    List JsonSyntax → Except BoundedJsonError (List Json × NodeCounter)
  | [] => return ([], counter)
  | item :: rest => do
    let (value, counter) ← decodeValue limits depth counter item
    let (values, counter) ← decodeItems limits depth counter rest
    return (value :: values, counter)

/-- `visit_map`. -/
def decodeEntries (limits : JsonLimits) (depth : Nat) (fields : Object) (counter : NodeCounter) :
    List (String × JsonSyntax) → Except BoundedJsonError (Object × NodeCounter)
  | [] => return (fields, counter)
  | (key, item) :: rest => do
    if (fields.get? key).isSome then throw (.duplicateKey key)
    let (value, counter) ← decodeValue limits depth counter item
    decodeEntries limits depth (fields.insert key value) counter rest

end

/-- Counts the root as depth one and each JSON value as one node. -/
def decodeStrictJson (document : ByteArray → JsonDocument) (bytes : ByteArray)
    (limits : JsonLimits) : Except BoundedJsonError Json := do
  if limits.maxBytes < bytes.size then throw (.bytes bytes.size limits.maxBytes)
  let (value, _) ← decodeValue limits 1 {} (document bytes).root
  match (document bytes).fault with
  | some message => throw (.invalidJson message)
  | none => return value

/-! ### Repeated keys -/

namespace Json

mutual

/-- No object repeats a key. -/
def Distinct : Json → Prop
  | array items => DistinctItems items
  | object entries => (entries.map Prod.fst).Nodup ∧ DistinctEntries entries
  | _ => True

@[inherit_doc Distinct]
def DistinctItems : List Json → Prop
  | [] => True
  | item :: rest => item.Distinct ∧ DistinctItems rest

@[inherit_doc Distinct]
def DistinctEntries : List (String × Json) → Prop
  | [] => True
  | (_, item) :: rest => item.Distinct ∧ DistinctEntries rest

end

lemma distinctItems_iff {items : List Json} :
    DistinctItems items ↔ ∀ item ∈ items, item.Distinct := by
  induction items with
  | nil => simp [DistinctItems]
  | cons item rest ih => rw [DistinctItems, ih, List.forall_mem_cons]

lemma distinctEntries_iff {entries : List (String × Json)} :
    DistinctEntries entries ↔ ∀ entry ∈ entries, entry.2.Distinct := by
  induction entries with
  | nil => simp [DistinctEntries]
  | cons entry rest ih => rw [DistinctEntries, ih, List.forall_mem_cons]

end Json

/-! ### What a walk checks -/

namespace JsonSyntax

mutual

/-- The value that the tree spells. -/
def json : JsonSyntax → Json
  | null => .null
  | bool value => .bool value
  | number value => .number value
  | string value => .string value
  | array items _ => .array (jsonItems items)
  | object entries _ => .object (jsonEntries entries)
  | invalid _ => .null

@[inherit_doc json]
def jsonItems : List JsonSyntax → List Json
  | [] => []
  | item :: rest => item.json :: jsonItems rest

@[inherit_doc json]
def jsonEntries : List (String × JsonSyntax) → List (String × Json)
  | [] => []
  | (key, item) :: rest => (key, item.json) :: jsonEntries rest

end

mutual

/-- The tree has no fault. -/
def Clean : JsonSyntax → Prop
  | array items fault => CleanItems items ∧ fault = none
  | object entries fault => CleanEntries entries ∧ fault = none
  | invalid _ => False
  | _ => True

@[inherit_doc Clean]
def CleanItems : List JsonSyntax → Prop
  | [] => True
  | item :: rest => item.Clean ∧ CleanItems rest

@[inherit_doc Clean]
def CleanEntries : List (String × JsonSyntax) → Prop
  | [] => True
  | (_, item) :: rest => item.Clean ∧ CleanEntries rest

end

end JsonSyntax

variable {value : Json}

lemma Object.get?_insert_eq_none_iff {fields : Object} {key other : String} :
    (fields.insert key value).get? other = none ↔ key ≠ other ∧ fields.get? other = none := by
  rw [Object.get?_insert]
  by_cases h : key = other
  · simp [h]
  · simp [h]

section Walk

variable {limits : JsonLimits}

lemma decodeScalar_eq_ok {depth : Nat} {counter counter' : NodeCounter} {result : Json}
    (value : Json) (hvisits : value.visits depth = [depth]) (hnormal : value.normalize = value)
    (hdist : value.Distinct) :
    decodeScalar limits depth counter value = .ok (result, counter') ↔
      value.Distinct ∧ (value.visits depth).foldlM (NodeCounter.charge limits) counter = .ok counter' ∧
        result = value.normalize := by
  rw [decodeScalar, hvisits, hnormal, List.foldlM_cons]
  rcases counter.charge limits depth with error | counter
  · exact iff_of_false (fun h => by cases h) (fun h => by cases h.2.1)
  · constructor
    · intro h
      cases h
      exact ⟨hdist, rfl, rfl⟩
    · rintro ⟨-, hcounter, rfl⟩
      cases hcounter
      rfl

mutual

/-- **A whole walk checks** that the text is a document without repeated keys, and charges every
value; it returns the value that a map in key order holds. -/
lemma decodeValue_eq_ok {value : Json} {counter' : NodeCounter} :
    ∀ (tree : JsonSyntax) (depth : Nat) (counter : NodeCounter),
      decodeValue limits depth counter tree = .ok (value, counter') ↔
        tree.Clean ∧ tree.json.Distinct ∧
          (tree.json.visits depth).foldlM (NodeCounter.charge limits) counter = .ok counter' ∧
          value = tree.json.normalize
  | .null, _, _ =>
    (decodeScalar_eq_ok .null rfl rfl trivial).trans (iff_of_eq (true_and _)).symm
  | .bool value, _, _ =>
    (decodeScalar_eq_ok (.bool value) rfl rfl trivial).trans (iff_of_eq (true_and _)).symm
  | .number value, _, _ =>
    (decodeScalar_eq_ok (.number value) rfl rfl trivial).trans (iff_of_eq (true_and _)).symm
  | .string value, _, _ =>
    (decodeScalar_eq_ok (.string value) rfl rfl trivial).trans (iff_of_eq (true_and _)).symm
  | .array items fault, depth, counter => by
    constructor
    · intro h
      obtain ⟨charged, hcharge, h⟩ := Except.of_bind_ok h
      obtain ⟨⟨values, total⟩, hitems, h⟩ := Except.of_bind_ok h
      obtain ⟨hclean, hdist, hcount, rfl⟩ := (decodeItems_eq_ok items _ _).mp hitems
      cases fault with
      | some msg => cases h
      | none =>
        cases h
        refine ⟨⟨hclean, rfl⟩, hdist, ?_, rfl⟩
        rw [JsonSyntax.json, Json.visits, List.foldlM_cons, hcharge]
        exact hcount
    · rintro ⟨⟨hclean, rfl⟩, hdist, hcount, rfl⟩
      rw [JsonSyntax.json, Json.visits, List.foldlM_cons] at hcount
      obtain ⟨charged, hcharge, hcount⟩ := Except.of_bind_ok hcount
      have hitems := (decodeItems_eq_ok items (depth + 1) charged).mpr
        ⟨hclean, hdist, hcount, rfl⟩
      rw [decodeValue, hcharge]
      show (decodeItems limits (depth + 1) charged items >>= _) = _
      rw [hitems]
      rfl
  | .object entries fault, depth, counter => by
    constructor
    · intro h
      obtain ⟨charged, hcharge, h⟩ := Except.of_bind_ok h
      obtain ⟨⟨fields, total⟩, hents, h⟩ := Except.of_bind_ok h
      obtain ⟨hclean, ⟨hkeys, -⟩, hdist, hcount, rfl⟩ :=
        (decodeEntries_eq_ok entries _ _ _).mp hents
      cases fault with
      | some msg => cases h
      | none =>
        cases h
        refine ⟨⟨hclean, rfl⟩, ⟨hkeys, hdist⟩, ?_, rfl⟩
        rw [JsonSyntax.json, Json.visits, List.foldlM_cons, hcharge]
        exact hcount
    · rintro ⟨⟨hclean, rfl⟩, ⟨hkeys, hdist⟩, hcount, rfl⟩
      rw [JsonSyntax.json, Json.visits, List.foldlM_cons] at hcount
      obtain ⟨charged, hcharge, hcount⟩ := Except.of_bind_ok hcount
      have hents := (decodeEntries_eq_ok entries (depth + 1) [] charged).mpr
        ⟨hclean, ⟨hkeys, fun _ _ => rfl⟩, hdist, hcount, rfl⟩
      rw [decodeValue, hcharge]
      show (decodeEntries limits (depth + 1) [] charged entries >>= _) = _
      rw [hents]
      rfl
  | .invalid msg, depth, counter => by
    refine iff_of_false (fun h => ?_) (fun h => h.1)
    obtain ⟨charged, -, h⟩ := Except.of_bind_ok h
    cases h

lemma decodeItems_eq_ok {values : List Json} {counter' : NodeCounter} :
    ∀ (items : List JsonSyntax) (depth : Nat) (counter : NodeCounter),
      decodeItems limits depth counter items = .ok (values, counter') ↔
        JsonSyntax.CleanItems items ∧ Json.DistinctItems (JsonSyntax.jsonItems items) ∧
          (Json.visitsItems depth (JsonSyntax.jsonItems items)).foldlM (NodeCounter.charge limits)
            counter = .ok counter' ∧
          values = Json.normalizeItems (JsonSyntax.jsonItems items)
  | [], depth, counter => by
    constructor
    · intro h
      cases h
      exact ⟨trivial, trivial, rfl, rfl⟩
    · rintro ⟨-, -, hcount, rfl⟩
      cases hcount
      rfl
  | item :: rest, depth, counter => by
    constructor
    · intro h
      obtain ⟨⟨value, mid⟩, hvalue, h⟩ := Except.of_bind_ok h
      obtain ⟨⟨others, total⟩, hothers, h⟩ := Except.of_bind_ok h
      cases h
      obtain ⟨hclean, hdist, hcount, rfl⟩ := (decodeValue_eq_ok item _ _).mp hvalue
      obtain ⟨hcleans, hdistin, hcounts, rfl⟩ := (decodeItems_eq_ok rest _ _).mp hothers
      refine ⟨⟨hclean, hcleans⟩, ⟨hdist, hdistin⟩, ?_, rfl⟩
      rw [JsonSyntax.jsonItems, Json.visitsItems, List.foldlM_append, hcount]
      exact hcounts
    · rintro ⟨⟨hclean, hcleans⟩, ⟨hdist, hdistin⟩, hcount, rfl⟩
      rw [JsonSyntax.jsonItems, Json.visitsItems, List.foldlM_append] at hcount
      obtain ⟨mid, hmid, hcounts⟩ := Except.of_bind_ok hcount
      have hvalue := (decodeValue_eq_ok item depth counter).mpr ⟨hclean, hdist, hmid, rfl⟩
      have hothers := (decodeItems_eq_ok rest depth mid).mpr ⟨hcleans, hdistin, hcounts, rfl⟩
      rw [decodeItems, hvalue]
      show (decodeItems limits depth mid rest >>= _) = _
      rw [hothers]
      rfl

lemma decodeEntries_eq_ok {fields' : Object} {counter' : NodeCounter} :
    ∀ (entries : List (String × JsonSyntax)) (depth : Nat) (fields : Object)
      (counter : NodeCounter),
      decodeEntries limits depth fields counter entries = .ok (fields', counter') ↔
        JsonSyntax.CleanEntries entries ∧
          (((JsonSyntax.jsonEntries entries).map Prod.fst).Nodup ∧
            ∀ key ∈ (JsonSyntax.jsonEntries entries).map Prod.fst, fields.get? key = none) ∧
          Json.DistinctEntries (JsonSyntax.jsonEntries entries) ∧
          (Json.visitsEntries depth (JsonSyntax.jsonEntries entries)).foldlM
            (NodeCounter.charge limits) counter = .ok counter' ∧
          fields' = fields.extend (Json.normalizeEntries (JsonSyntax.jsonEntries entries))
  | [], depth, fields, counter => by
    constructor
    · intro h
      cases h
      exact ⟨trivial, ⟨List.nodup_nil, fun _ h => (by cases h)⟩, trivial, rfl, rfl⟩
    · rintro ⟨-, -, -, hcount, rfl⟩
      cases hcount
      rfl
  | (key, item) :: rest, depth, fields, counter => by
    constructor
    · intro h
      rw [decodeEntries] at h
      obtain ⟨hfresh, h⟩ := Except.of_refuse_ok h
      obtain ⟨⟨value, mid⟩, hvalue, h⟩ := Except.of_bind_ok h
      obtain ⟨hclean, hdist, hcount, rfl⟩ := (decodeValue_eq_ok item _ _).mp hvalue
      obtain ⟨hcleans, ⟨hkeys, hnew⟩, hdistin, hcounts, rfl⟩ :=
        (decodeEntries_eq_ok rest _ _ _).mp h
      refine ⟨⟨hclean, hcleans⟩, ⟨?_, ?_⟩, ⟨hdist, hdistin⟩, ?_, rfl⟩
      · refine List.nodup_cons.mpr ⟨fun hmem => ?_, hkeys⟩
        exact (Object.get?_insert_eq_none_iff.mp (hnew key hmem)).1 rfl
      · intro other hother
        rcases List.mem_cons.mp hother with rfl | hmem
        · exact Option.not_isSome_iff_eq_none.mp hfresh
        · exact (Object.get?_insert_eq_none_iff.mp (hnew other hmem)).2
      · rw [JsonSyntax.jsonEntries, Json.visitsEntries, List.foldlM_append, hcount]
        exact hcounts
    · rintro ⟨⟨hclean, hcleans⟩, ⟨hkeys, hnew⟩, ⟨hdist, hdistin⟩, hcount, rfl⟩
      rw [JsonSyntax.jsonEntries, Json.visitsEntries, List.foldlM_append] at hcount
      obtain ⟨mid, hmid, hcounts⟩ := Except.of_bind_ok hcount
      obtain ⟨hkey, hkeys⟩ := List.nodup_cons.mp hkeys
      have hfresh : ¬(fields.get? key).isSome = true :=
        Option.not_isSome_iff_eq_none.mpr (hnew key List.mem_cons_self)
      have hvalue := (decodeValue_eq_ok item depth counter).mpr ⟨hclean, hdist, hmid, rfl⟩
      have hothers := (decodeEntries_eq_ok rest depth (fields.insert key item.json.normalize)
        mid).mpr ⟨hcleans, ⟨hkeys, fun other hother => Object.get?_insert_eq_none_iff.mpr
          ⟨fun heq => hkey (heq ▸ hother), hnew other (List.mem_cons_of_mem _ hother)⟩⟩,
          hdistin, hcounts, rfl⟩
      rw [decodeEntries, if_neg hfresh, hvalue]
      exact hothers

end

end Walk

/-! ### Counting a value -/

namespace Json

/-- Values in a document: one for each, keys uncounted. -/
def nodeCount (value : Json) : Nat := (value.visits 1).length

def maxDepth (value : Json) : Nat := (value.visits 1).foldl max 0

lemma visitsEntries_insert_perm {fields : Object} {key : String} (h : fields.get? key = none)
    (depth : Nat) (value : Json) :
    (visitsEntries depth (fields.insert key value)).Perm
      (value.visits depth ++ visitsEntries depth fields) := by
  induction fields with
  | nil => exact List.Perm.refl _
  | cons entry rest ih =>
    obtain ⟨name, old⟩ := entry
    rw [Object.get?_cons] at h
    split_ifs at h with hname
    rw [Object.insert, if_neg hname]
    split_ifs
    · exact List.Perm.refl _
    · refine ((ih h).append_left (old.visits depth)).trans ?_
      rw [visitsEntries, ← List.append_assoc, ← List.append_assoc]
      exact List.perm_append_comm.append_right _

mutual

/-- **Holding a document in key order keeps its values.** -/
lemma visits_normalize_perm :
    ∀ (value : Json) (depth : Nat), value.Distinct →
      (value.normalize.visits depth).Perm (value.visits depth)
  | .null, _, _ => List.Perm.refl _
  | .bool _, _, _ => List.Perm.refl _
  | .number _, _, _ => List.Perm.refl _
  | .string _, _, _ => List.Perm.refl _
  | .array items, depth, h => (visitsItems_normalize_perm items (depth + 1) h).cons depth
  | .object entries, depth, ⟨hkeys, hents⟩ => by
    have hall := visitsEntries_normalize_perm entries (depth + 1) [] hkeys (fun _ _ => rfl) hents
    exact hall.cons depth

lemma visitsItems_normalize_perm :
    ∀ (items : List Json) (depth : Nat), DistinctItems items →
      (visitsItems depth (normalizeItems items)).Perm (visitsItems depth items)
  | [], _, _ => List.Perm.refl _
  | item :: rest, depth, ⟨hitem, hrest⟩ =>
    (visits_normalize_perm item depth hitem).append (visitsItems_normalize_perm rest depth hrest)

lemma visitsEntries_normalize_perm :
    ∀ (entries : List (String × Json)) (depth : Nat) (fields : Object),
      (entries.map Prod.fst).Nodup → (∀ key ∈ entries.map Prod.fst, fields.get? key = none) →
      DistinctEntries entries →
      (visitsEntries depth (fields.extend (normalizeEntries entries))).Perm
        (visitsEntries depth fields ++ visitsEntries depth entries)
  | [], _, _, _, _, _ => by
    rw [visitsEntries, List.append_nil]
    exact List.Perm.refl _
  | (key, item) :: rest, depth, fields, hkeys, hnew, ⟨hitem, hrest⟩ => by
    obtain ⟨hkey, hkeys⟩ := List.nodup_cons.mp hkeys
    have hothers := visitsEntries_normalize_perm rest depth (fields.insert key item.normalize) hkeys
      (fun other hother => Object.get?_insert_eq_none_iff.mpr
        ⟨fun heq => hkey (heq ▸ hother), hnew other (List.mem_cons_of_mem _ hother)⟩) hrest
    have hinsert := visitsEntries_insert_perm (hnew key List.mem_cons_self) depth item.normalize
    have hitem' := visits_normalize_perm item depth hitem
    refine hothers.trans ((hinsert.append_right _).trans ?_)
    refine (List.perm_append_comm.append_right _).trans ?_
    rw [List.append_assoc]
    exact (hitem'.append_right _).append_left _

end

lemma nodeCount_normalize (h : value.Distinct) :
    value.normalize.nodeCount = value.nodeCount :=
  (visits_normalize_perm value 1 h).length_eq

lemma maxDepth_normalize (h : value.Distinct) :
    value.normalize.maxDepth = value.maxDepth :=
  (visits_normalize_perm value 1 h).foldl_eq 0

mutual

lemma nesting_le_of_visits {limit : Nat} :
    ∀ (value : Json) (depth : Nat), (∀ d ∈ value.visits depth, d ≤ limit) →
      depth + value.nesting ≤ limit + 1
  | .null, depth, h | .bool _, depth, h | .number _, depth, h | .string _, depth, h => Nat.le_succ_of_le (h depth List.mem_cons_self)
  | .array items, depth, h => by
    have hself := h depth List.mem_cons_self
    have hitems := nestingItems_le_of_visits items (depth + 1) (Nat.succ_le_succ hself)
      fun d hd => h d (List.mem_cons_of_mem _ hd)
    rw [nesting]
    omega
  | .object entries, depth, h => by
    have hself := h depth List.mem_cons_self
    have hents := nestingEntries_le_of_visits entries (depth + 1) (Nat.succ_le_succ hself)
      fun d hd => h d (List.mem_cons_of_mem _ hd)
    rw [nesting]
    omega

lemma nestingItems_le_of_visits {limit : Nat} :
    ∀ (items : List Json) (depth : Nat), depth ≤ limit + 1 →
      (∀ d ∈ visitsItems depth items, d ≤ limit) → depth + nestingItems items ≤ limit + 1
  | [], _, hdepth, _ => hdepth
  | item :: rest, depth, hdepth, h => by
    have hitem := nesting_le_of_visits item depth fun d hd => h d (List.mem_append_left _ hd)
    have hrest := nestingItems_le_of_visits rest depth hdepth
      fun d hd => h d (List.mem_append_right _ hd)
    rw [nestingItems]
    omega

lemma nestingEntries_le_of_visits {limit : Nat} :
    ∀ (entries : List (String × Json)) (depth : Nat), depth ≤ limit + 1 →
      (∀ d ∈ visitsEntries depth entries, d ≤ limit) → depth + nestingEntries entries ≤ limit + 1
  | [], _, hdepth, _ => hdepth
  | (_, item) :: rest, depth, hdepth, h => by
    have hitem := nesting_le_of_visits item depth fun d hd => h d (List.mem_append_left _ hd)
    have hrest := nestingEntries_le_of_visits rest depth hdepth
      fun d hd => h d (List.mem_append_right _ hd)
    rw [nestingEntries]
    omega

end

end Json

variable {limits : JsonLimits}

lemma foldlM_charge_ok {depths : List Nat} {counter counter' : NodeCounter}
    (h : depths.foldlM (NodeCounter.charge limits) counter = .ok counter') :
    counter'.nodes = counter.nodes + depths.length ∧
      counter'.depth = depths.foldl max counter.depth ∧ ∀ depth ∈ depths, depth ≤ limits.maxDepth := by
  induction depths generalizing counter with
  | nil =>
    cases h
    exact ⟨rfl, rfl, fun _ h => (by cases h)⟩
  | cons depth rest ih =>
    rw [List.foldlM_cons] at h
    obtain ⟨charged, hcharge, h⟩ := Except.of_bind_ok h
    obtain ⟨hnodes, hdepth, hall⟩ := ih h
    unfold NodeCounter.charge at hcharge
    split_ifs at hcharge with hdeep hmany
    cases hcharge
    refine ⟨?_, hdepth, ?_⟩
    · rw [hnodes, List.length_cons, Nat.add_assoc, Nat.add_comm 1]
    · intro d hd
      rcases List.mem_cons.mp hd with rfl | hd
      · exact Nat.not_lt.mp hdeep
      · exact hall d hd

/-! ### Bytes of the text -/

namespace Json

def charBytes (c : Char) : Nat := ((jsonEscape c).getD (String.singleton c)).utf8ByteSize

lemma writtenBytes_contentWrites_eq (chars : List Char) :
    ∀ fragment : String, writtenBytes (contentWrites fragment chars) =
      fragment.utf8ByteSize + (chars.map charBytes).sum := by
  have hfragm : ∀ fragment : String,
      writtenBytes (if fragment.isEmpty then [] else [fragment]) = fragment.utf8ByteSize := by
    intro fragment
    split
    · rename_i hempty
      rw [String.isEmpty_iff] at hempty
      rw [hempty]
      rfl
    · rw [writtenBytes_cons, writtenBytes_nil, Nat.add_zero]
  induction chars with
  | nil => exact fun fragment => hfragm fragment
  | cons c rest ih =>
    intro fragment
    rw [List.map_cons, List.sum_cons, contentWrites]
    split
    · rename_i hescape
      rw [ih, String.push_eq_append, String.utf8ByteSize_append, charBytes, hescape]
      simp only [Option.getD_none]
      omega
    · rename_i escape hescape
      have hempty : "".utf8ByteSize = 0 := rfl
      rw [writtenBytes_append, hfragm, writtenBytes_cons, ih, charBytes, hescape, hempty]
      simp only [Option.getD_some]
      omega

lemma writtenBytes_stringWrites (value : String) :
    writtenBytes (stringWrites value) = (renderString value).utf8ByteSize := by
  have hfold : ∀ (chars : List Char) (text : String),
      (chars.foldl (fun text c => text ++ (jsonEscape c).getD (String.singleton c)) text).utf8ByteSize =
        text.utf8ByteSize + (chars.map charBytes).sum := by
    intro chars
    induction chars with
    | nil => exact fun _ => rfl
    | cons c rest ih =>
      intro text
      rw [List.foldl_cons, ih, String.utf8ByteSize_append, List.map_cons, List.sum_cons, charBytes,
        Nat.add_assoc]
  have hquote : "\"".utf8ByteSize = 1 ∧ "".utf8ByteSize = 0 := ⟨rfl, rfl⟩
  rw [stringWrites, writtenBytes_cons, writtenBytes_append, writtenBytes_contentWrites_eq,
    writtenBytes_cons, writtenBytes_nil, renderString, String.utf8ByteSize_append, hfold, hquote.1,
    hquote.2]
  omega

lemma writtenBytes_writesItems_cons (item : Json) (rest : List Json) :
    writtenBytes (writesItems true (item :: rest)) =
      item.byteSize + writtenBytes (writesItems false rest) := by
  rw [writesItems, if_pos rfl, List.nil_append, writtenBytes_append, byteSize]

lemma writtenBytes_writesItems_next (item : Json) (rest : List Json) :
    writtenBytes (writesItems false (item :: rest)) =
      1 + writtenBytes (writesItems true (item :: rest)) := by
  have hcomma : ",".utf8ByteSize = 1 := rfl
  simp only [writesItems, Bool.false_eq_true, if_false, if_true, List.nil_append,
    List.cons_append, writtenBytes_cons, writtenBytes_append, hcomma]

lemma writtenBytes_writesEntries_cons (key : String) (item : Json)
    (rest : List (String × Json)) :
    writtenBytes (writesEntries true ((key, item) :: rest)) =
      (renderString key).utf8ByteSize + 1 + item.byteSize +
        writtenBytes (writesEntries false rest) := by
  have hcolon : ":".utf8ByteSize = 1 := rfl
  simp only [writesEntries, if_true, List.nil_append, writtenBytes_append, writtenBytes_cons,
    writtenBytes_nil, hcolon, writtenBytes_stringWrites, byteSize, Nat.add_zero]

lemma writtenBytes_writesEntries_next (entry : String × Json) (rest : List (String × Json)) :
    writtenBytes (writesEntries false (entry :: rest)) =
      1 + writtenBytes (writesEntries true (entry :: rest)) := by
  have hcomma : ",".utf8ByteSize = 1 := rfl
  obtain ⟨key, item⟩ := entry
  simp only [writesEntries, Bool.false_eq_true, if_false, if_true, List.nil_append,
    List.cons_append, writtenBytes_cons, writtenBytes_append, hcomma]

mutual

lemma byteSize_eq_render : ∀ value : Json, value.byteSize = value.render.utf8ByteSize
  | .null => rfl
  | .bool value => by cases value <;> rfl
  | .number value => by
    rw [byteSize, writes, writtenBytes_cons, writtenBytes_nil, Nat.add_zero, render]
  | .string value => writtenBytes_stringWrites value
  | .array items => by
    have hitems := writtenBytes_writesItems items
    rw [byteSize, writes, writtenBytes_cons, writtenBytes_append, hitems, writtenBytes_cons,
      writtenBytes_nil, render, String.utf8ByteSize_append, String.utf8ByteSize_append]
    omega
  | .object entries => by
    have hents := writtenBytes_writesEntries entries
    rw [byteSize, writes, writtenBytes_cons, writtenBytes_append, hents, writtenBytes_cons,
      writtenBytes_nil, render, String.utf8ByteSize_append, String.utf8ByteSize_append]
    omega

lemma writtenBytes_writesItems : ∀ items : List Json,
    writtenBytes (writesItems true items) = (renderItems items).utf8ByteSize
  | [] => rfl
  | [item] => by
    rw [writtenBytes_writesItems_cons, byteSize_eq_render item, renderItems]
    rfl
  | item :: next :: rest => by
    have hcomma : ",".utf8ByteSize = 1 := rfl
    have hrender : renderItems (item :: next :: rest) =
        item.render ++ "," ++ renderItems (next :: rest) := rfl
    rw [writtenBytes_writesItems_cons, writtenBytes_writesItems_next, byteSize_eq_render item,
      writtenBytes_writesItems (next :: rest), hrender, String.utf8ByteSize_append,
      String.utf8ByteSize_append, hcomma, Nat.add_assoc]

lemma writtenBytes_writesEntries : ∀ entries : List (String × Json),
    writtenBytes (writesEntries true entries) = (renderEntries entries).utf8ByteSize
  | [] => rfl
  | [(key, item)] => by
    have hcolon : ":".utf8ByteSize = 1 := rfl
    rw [writtenBytes_writesEntries_cons, byteSize_eq_render item, renderEntries,
      String.utf8ByteSize_append, String.utf8ByteSize_append, hcolon]
    rfl
  | (key, item) :: next :: rest => by
    have hmark : ",".utf8ByteSize = 1 ∧ ":".utf8ByteSize = 1 := ⟨rfl, rfl⟩
    have hrender : renderEntries ((key, item) :: next :: rest) =
        renderString key ++ ":" ++ item.render ++ "," ++ renderEntries (next :: rest) := rfl
    rw [writtenBytes_writesEntries_cons, writtenBytes_writesEntries_next, byteSize_eq_render item,
      writtenBytes_writesEntries (next :: rest), hrender, String.utf8ByteSize_append,
      String.utf8ByteSize_append, String.utf8ByteSize_append, String.utf8ByteSize_append, hmark.1,
      hmark.2]
    omega

end

end Json

/-! ### Reading what was written -/

namespace Json

mutual

/-- What is shown of the text of a value; `reread` is the number that a written one reads as. -/
def shown (reread : Number → Number) : Json → JsonSyntax
  | null => .null
  | bool value => .bool value
  | number value => .number (reread value)
  | string value => .string value
  | array items => .array (shownItems reread items) none
  | object entries => .object (shownEntries reread entries) none

@[inherit_doc shown]
def shownItems (reread : Number → Number) : List Json → List JsonSyntax
  | [] => []
  | item :: rest => item.shown reread :: shownItems reread rest

@[inherit_doc shown]
def shownEntries (reread : Number → Number) : List (String × Json) → List (String × JsonSyntax)
  | [] => []
  | (key, item) :: rest => (key, item.shown reread) :: shownEntries reread rest

end

section Shown

variable (reread : Number → Number)

mutual

lemma clean_shown : ∀ value : Json, (value.shown reread).Clean
  | .null => trivial
  | .bool _ => trivial
  | .number _ => trivial
  | .string _ => trivial
  | .array items => ⟨clean_shownItems items, rfl⟩
  | .object entries => ⟨clean_shownEntries entries, rfl⟩

lemma clean_shownItems : ∀ items : List Json, JsonSyntax.CleanItems (shownItems reread items)
  | [] => trivial
  | item :: rest => ⟨clean_shown item, clean_shownItems rest⟩

lemma clean_shownEntries :
    ∀ entries : List (String × Json), JsonSyntax.CleanEntries (shownEntries reread entries)
  | [] => trivial
  | (_, item) :: rest => ⟨clean_shown item, clean_shownEntries rest⟩

end

lemma keys_shownEntries : ∀ entries : List (String × Json),
    (JsonSyntax.jsonEntries (shownEntries reread entries)).map Prod.fst = entries.map Prod.fst
  | [] => rfl
  | (key, item) :: rest => by
    rw [shownEntries, JsonSyntax.jsonEntries, List.map_cons, keys_shownEntries rest, List.map_cons]

mutual

lemma distinct_shown : ∀ value : Json, (value.shown reread).json.Distinct ↔ value.Distinct
  | .null => Iff.rfl
  | .bool _ => Iff.rfl
  | .number _ => Iff.rfl
  | .string _ => Iff.rfl
  | .array items => distinct_shownItems items
  | .object entries => by
    rw [shown, JsonSyntax.json, Distinct, Distinct, keys_shownEntries, distinct_shownEntries entries]

lemma distinct_shownItems : ∀ items : List Json,
    DistinctItems (JsonSyntax.jsonItems (shownItems reread items)) ↔ DistinctItems items
  | [] => Iff.rfl
  | item :: rest => and_congr (distinct_shown item) (distinct_shownItems rest)

lemma distinct_shownEntries : ∀ entries : List (String × Json),
    DistinctEntries (JsonSyntax.jsonEntries (shownEntries reread entries)) ↔
      DistinctEntries entries
  | [] => Iff.rfl
  | (_, item) :: rest => and_congr (distinct_shown item) (distinct_shownEntries rest)

end

mutual

lemma visits_shown : ∀ (value : Json) (depth : Nat),
    (value.shown reread).json.visits depth = value.visits depth
  | .null, _ => rfl
  | .bool _, _ => rfl
  | .number _, _ => rfl
  | .string _, _ => rfl
  | .array items, depth => congrArg (depth :: ·) (visits_shownItems items (depth + 1))
  | .object entries, depth => congrArg (depth :: ·) (visits_shownEntries entries (depth + 1))

lemma visits_shownItems : ∀ (items : List Json) (depth : Nat),
    visitsItems depth (JsonSyntax.jsonItems (shownItems reread items)) = visitsItems depth items
  | [], _ => rfl
  | item :: rest, depth => by
    rw [shownItems, JsonSyntax.jsonItems, visitsItems, visits_shown item, visits_shownItems rest,
      visitsItems]

lemma visits_shownEntries : ∀ (entries : List (String × Json)) (depth : Nat),
    visitsEntries depth (JsonSyntax.jsonEntries (shownEntries reread entries)) =
      visitsEntries depth entries
  | [], _ => rfl
  | (_, item) :: rest, depth => by
    rw [shownEntries, JsonSyntax.jsonEntries, visitsEntries, visits_shown item,
      visits_shownEntries rest, visitsEntries]

end

end Shown

end Json

/-- The text is a document, up to its end. -/
def JsonDocument.Clean (document : JsonDocument) : Prop :=
  document.root.Clean ∧ document.fault = none

/-- What the decoder relies on in `serde_json`: the text of a value that it wrote is shown as
that value, and refused where arrays and objects nest beyond the recursion limit; `printed` are
the numbers that it writes. -/
structure ReadsDocuments (document : ByteArray → JsonDocument) (printed : Number → Prop)
    (reread : Number → Number) : Prop where
  reads : ∀ value : Json, value.Numbers printed → value.nesting ≤ RECURSION_LIMIT →
    document value.render.toByteArray = ⟨value.shown reread, none⟩
  refuses : ∀ value : Json, value.Numbers printed → RECURSION_LIMIT < value.nesting →
    ¬(document value.render.toByteArray).Clean

lemma decodeStrictJson_eq_ok {document : ByteArray → JsonDocument} {bytes : ByteArray} :
    decodeStrictJson document bytes limits = .ok value ↔
      bytes.size ≤ limits.maxBytes ∧ (document bytes).Clean ∧
        (document bytes).root.json.Distinct ∧
        (∃ counter, ((document bytes).root.json.visits 1).foldlM (NodeCounter.charge limits) {} =
          .ok counter) ∧
        value = (document bytes).root.json.normalize := by
  constructor
  · intro h
    rw [decodeStrictJson] at h
    obtain ⟨hsize, h⟩ := Except.of_refuse_ok h
    obtain ⟨⟨read, counter⟩, hread, h⟩ := Except.of_bind_ok h
    obtain ⟨hclean, hdist, hcount, rfl⟩ := (decodeValue_eq_ok _ _ _).mp hread
    dsimp only at h
    split at h
    · cases h
    · rename_i hfault
      cases h
      exact ⟨Nat.not_lt.mp hsize, ⟨hclean, hfault⟩, hdist, ⟨counter, hcount⟩, rfl⟩
  · rintro ⟨hsize, ⟨hclean, hfault⟩, hdist, ⟨counter, hcount⟩, rfl⟩
    have hread := (decodeValue_eq_ok _ _ _).mpr ⟨hclean, hdist, hcount, rfl⟩
    rw [decodeStrictJson, if_neg (Nat.not_lt.mpr hsize), hread]
    show (match (document bytes).fault with | some _ => _ | none => _) = _
    rw [hfault]
    rfl

lemma decode_render_eq_ok {document : ByteArray → JsonDocument} {printed : Number → Prop}
    {reread : Number → Number} (h : ReadsDocuments document printed reread) {value decoded : Json}
    (hnums : value.Numbers printed)
    (hdepth : limits.maxDepth ≤ RECURSION_LIMIT) :
    decodeStrictJson document value.render.toByteArray limits = .ok decoded ↔
      value.render.utf8ByteSize ≤ limits.maxBytes ∧ value.Distinct ∧
        (∃ counter, (value.visits 1).foldlM (NodeCounter.charge limits) {} = .ok counter) ∧
        decoded = (value.shown reread).json.normalize := by
  rw [decodeStrictJson_eq_ok, String.size_toByteArray]
  by_cases hnest : value.nesting ≤ RECURSION_LIMIT
  · rw [h.reads value hnums hnest]
    dsimp only
    rw [Json.distinct_shown, Json.visits_shown]
    constructor
    · rintro ⟨hsize, -, hdist, hcount, hvalue⟩
      exact ⟨hsize, hdist, hcount, hvalue⟩
    · rintro ⟨hsize, hdist, hcount, hvalue⟩
      exact ⟨hsize, ⟨Json.clean_shown reread value, rfl⟩, hdist, hcount, hvalue⟩
  · refine iff_of_false (fun hdecode => ?_) fun hfits => ?_
    · exact h.refuses value hnums (Nat.not_le.mp hnest) hdecode.2.1
    · -- a value below the limit has no deeper array or object around it
      obtain ⟨-, -, ⟨counter, hcount⟩, -⟩ := hfits
      obtain ⟨-, -, hall⟩ := foldlM_charge_ok hcount
      have := Json.nesting_le_of_visits value 1 hall
      omega

/-! ### A reader of compact text -/

/-- The document of compact text; `parse` reads a number. -/
def compactDocument (parse : String → Option Number) (bytes : ByteArray) : JsonDocument :=
  match String.fromUTF8? bytes with
  | none => ⟨.invalid "invalid unicode code point", none⟩
  | some text =>
    let chars := text.toList
    match readValue parse (chars.length + 1) RECURSION_LIMIT chars with
    | some (value, []) => ⟨value.shown id, none⟩
    | _ => ⟨.invalid "expected value", none⟩

lemma compactDocument_reads {parse : String → Option Number} {printed : Number → Prop}
    (h : ReadsNumbersBack parse printed) : ReadsDocuments (compactDocument parse) printed id := by
  have hread : ∀ value : Json, value.Numbers printed →
      compactDocument parse value.render.toByteArray = if value.nesting ≤ RECURSION_LIMIT then
        ⟨value.shown id, none⟩ else ⟨.invalid "expected value", none⟩ := by
    intro value hnums
    have htext : String.fromUTF8? value.render.toByteArray = some value.render :=
      dif_pos value.render.isValidUTF8
    have hvalue := readValue_render h value hnums value.render.toList.length
      RECURSION_LIMIT [] (Nat.le_succ _) (fun c hc => by cases hc)
    rw [List.append_nil] at hvalue
    unfold compactDocument
    rw [htext]
    dsimp only
    rw [hvalue]
    by_cases hnest : value.nesting ≤ RECURSION_LIMIT
    · rw [if_pos hnest, if_pos hnest]
    · rw [if_neg hnest, if_neg hnest]
  refine ⟨fun value hnums hnest => ?_, fun value hnums hnest => ?_⟩
  · rw [hread value hnums, if_pos hnest]
  · rw [hread value hnums, if_neg (Nat.not_le.mpr hnest)]
    exact fun hclean => hclean.1

end Antiburn
