/-
Measuring a value while it is serialized, against decoding what was written.

A `Serializable` is what a Rust value shows a serializer, one constructor for
each kind of call.  The node pass counts those calls; `serde_json` writes the
JSON of the value.  The two passes charge the same depths in the same order, so
that measuring and strict decoding accept the same values, except where a float
is not finite: the node pass refuses it and `serde_json` writes null for it.
-/
import Antiburn.StrictJson

namespace Antiburn

/-- A value as it is serialized.  A float is the number that it prints, with none for the
infinities and NaN; a key is its text, with none for what is no JSON key. -/
inductive Serializable where
  | bool (value : Bool)
  | integer (value : Int)
  | float (value : Option Number)
  | char (value : Char)
  | str (value : String)
  | display (text : String)
  | bytes (value : List UInt8)
  | none
  | some (value : Serializable)
  | unit
  | unitStruct
  | unitVariant (variant : String)
  | newtypeStruct (value : Serializable)
  | newtypeVariant (variant : String) (value : Serializable)
  | seq (items : List Serializable)
  | tuple (items : List Serializable)
  | tupleStruct (items : List Serializable)
  | tupleVariant (variant : String) (items : List Serializable)
  | map (entries : List (Option String × Serializable))
  | struct (fields : List (String × Serializable))
  | structVariant (variant : String) (fields : List (String × Serializable))

namespace Serializable

/-! ### Measuring -/

mutual

/-- `NodeSerializer`: charge every value, at its depth. -/
def charge (limits : JsonLimits) (depth : Nat) (counter : NodeCounter) :
    Serializable → Except BoundedJsonError NodeCounter
  | .bool _ | .integer _ | .char _ | .str _ | .display _ => counter.charge limits depth
  | .float Option.none => .error (.serialization "JSON numbers must be finite.")
  | .float (Option.some _) => counter.charge limits depth
  | .bytes value => do
    let counter ← counter.charge limits depth
    value.foldlM (fun counter _ => counter.charge limits (depth + 1)) counter
  | .none | .unit | .unitStruct | .unitVariant _ => counter.charge limits depth
  | .some value | .newtypeStruct value => value.charge limits depth counter
  | .newtypeVariant _ value => do
    let counter ← counter.charge limits depth
    value.charge limits (depth + 1) counter
  | .seq items | .tuple items | .tupleStruct items => do
    let counter ← counter.charge limits depth
    chargeItems limits (depth + 1) counter items
  | .tupleVariant _ items => do
    let counter ← counter.charge limits depth
    let counter ← counter.charge limits (depth + 1)
    chargeItems limits (depth + 1 + 1) counter items
  | .map entries => do
    let counter ← counter.charge limits depth
    chargeEntries limits (depth + 1) counter entries
  | .struct fields => do
    let counter ← counter.charge limits depth
    chargeFields limits (depth + 1) counter fields
  | .structVariant _ fields => do
    let counter ← counter.charge limits depth
    let counter ← counter.charge limits (depth + 1)
    chargeFields limits (depth + 1 + 1) counter fields

/-- Elements of a sequence, one level deeper than it. -/
def chargeItems (limits : JsonLimits) (depth : Nat) (counter : NodeCounter) :
    List Serializable → Except BoundedJsonError NodeCounter
  | [] => return counter
  | item :: rest => do
    let counter ← item.charge limits depth counter
    chargeItems limits depth counter rest

def chargeEntries (limits : JsonLimits) (depth : Nat) (counter : NodeCounter) :
    List (Option String × Serializable) → Except BoundedJsonError NodeCounter
  | [] => return counter
  | (_, item) :: rest => do
    let counter ← item.charge limits depth counter
    chargeEntries limits depth counter rest

def chargeFields (limits : JsonLimits) (depth : Nat) (counter : NodeCounter) :
    List (String × Serializable) → Except BoundedJsonError NodeCounter
  | [] => return counter
  | (_, item) :: rest => do
    let counter ← item.charge limits depth counter
    chargeFields limits depth counter rest

end

mutual

/-- The JSON that `serde_json` writes; none where it refuses a key. -/
def json : Serializable → Option Json
  | .bool value => Option.some (.bool value)
  | .integer value => Option.some (.number ⟨toString value⟩)
  | .float Option.none => Option.some .null
  | .float (Option.some value) => Option.some (.number value)
  | .char value => Option.some (.string (String.singleton value))
  | .str value => Option.some (.string value)
  | .display text => Option.some (.string text)
  | .bytes value => Option.some (.array (value.map fun byte => .number (.ofNat byte.toNat)))
  | .none | .unit | .unitStruct => Option.some .null
  | .unitVariant variant => Option.some (.string variant)
  | .some value | .newtypeStruct value => value.json
  | .newtypeVariant variant value => value.json.map fun json => .object [(variant, json)]
  | .seq items | .tuple items | .tupleStruct items => (jsonItems items).map .array
  | .tupleVariant variant items =>
    (jsonItems items).map fun items => .object [(variant, .array items)]
  | .map entries => (jsonEntries entries).map .object
  | .struct fields => (jsonFields fields).map .object
  | .structVariant variant fields =>
    (jsonFields fields).map fun fields => .object [(variant, .object fields)]

@[inherit_doc json]
def jsonItems : List Serializable → Option (List Json)
  | [] => Option.some []
  | item :: rest =>
    item.json.bind fun json => (jsonItems rest).map fun others => json :: others

@[inherit_doc json]
def jsonEntries : List (Option String × Serializable) → Option (List (String × Json))
  | [] => Option.some []
  | (Option.none, _) :: _ => Option.none
  | (Option.some key, item) :: rest =>
    item.json.bind fun json => (jsonEntries rest).map fun others => (key, json) :: others

@[inherit_doc json]
def jsonFields : List (String × Serializable) → Option (List (String × Json))
  | [] => Option.some []
  | (name, item) :: rest =>
    item.json.bind fun json => (jsonFields rest).map fun others => (name, json) :: others

end

/-- Measures serialized JSON without a body: the node pass, then the bytes that `serde_json`
writes. -/
def measure (value : Serializable) (limits : JsonLimits) :
    Except BoundedJsonError JsonMeasurement := do
  let counter ← value.charge limits 1 {}
  match value.json with
  | Option.none => throw (.serialization "key must be a string")
  | Option.some json =>
    let bytes ← json.writes.foldlM (writeBytes limits.maxBytes) 0
    return ⟨bytes, counter.nodes, counter.depth⟩

/-! ### The node pass charges the values of the JSON -/

mutual

/-- Every float is finite. -/
def Finite : Serializable → Prop
  | .float value => value ≠ Option.none
  | .some value | .newtypeStruct value | .newtypeVariant _ value => value.Finite
  | .seq items | .tuple items | .tupleStruct items | .tupleVariant _ items => FiniteItems items
  | .map entries => FiniteEntries entries
  | .struct fields | .structVariant _ fields => FiniteFields fields
  | _ => True

@[inherit_doc Finite]
def FiniteItems : List Serializable → Prop
  | [] => True
  | item :: rest => item.Finite ∧ FiniteItems rest

@[inherit_doc Finite]
def FiniteEntries : List (Option String × Serializable) → Prop
  | [] => True
  | (_, item) :: rest => item.Finite ∧ FiniteEntries rest

@[inherit_doc Finite]
def FiniteFields : List (String × Serializable) → Prop
  | [] => True
  | (_, item) :: rest => item.Finite ∧ FiniteFields rest

end

section Pass

variable {limits : JsonLimits}

lemma foldlM_bytes (depth : Nat) (value : List UInt8) (counter : NodeCounter) :
    value.foldlM (fun counter _ => counter.charge limits depth) counter =
      (Json.visitsItems depth (value.map fun byte => .number (.ofNat byte.toNat))).foldlM
        (NodeCounter.charge limits) counter := by
  induction value generalizing counter with
  | nil => rfl
  | cons byte rest ih =>
    show (counter.charge limits depth >>= fun counter => rest.foldlM _ counter) =
      (counter.charge limits depth >>= fun counter => _)
    congr 1
    funext counter
    exact ih counter

lemma charge_scalar {depth : Nat} (counter : NodeCounter) {json : Json}
    (hvisits : json.visits depth = [depth]) :
    counter.charge limits depth = (json.visits depth).foldlM (NodeCounter.charge limits) counter := by
  rw [hvisits, List.foldlM_cons]
  rcases counter.charge limits depth with error | counter
  · rfl
  · rfl

lemma charge_compound {depths : List Nat} {rest : NodeCounter → Except BoundedJsonError NodeCounter}
    (depth : Nat) (counter : NodeCounter)
    (h : ∀ counter, rest counter = depths.foldlM (NodeCounter.charge limits) counter) :
    (counter.charge limits depth >>= rest) =
      (depth :: depths).foldlM (NodeCounter.charge limits) counter := by
  rw [List.foldlM_cons]
  congr 1
  funext counter
  exact h counter

lemma visits_variant (depth : Nat) (variant : String) (json : Json) :
    (Json.object [(variant, json)]).visits depth = depth :: json.visits (depth + 1) := by
  rw [Json.visits, Json.visitsEntries, Json.visitsEntries, List.append_nil]

mutual

/-- **The node pass charges what the JSON contains**, where every float is finite. -/
lemma charge_eq :
    ∀ (value : Serializable) (depth : Nat) (counter : NodeCounter) (json : Json), value.Finite →
      value.json = Option.some json →
      value.charge limits depth counter = (json.visits depth).foldlM (NodeCounter.charge limits) counter
  | .float Option.none, depth, counter, json, hfinite, _ => absurd rfl hfinite
  | .bool _, depth, counter, json, _, h | .integer _, depth, counter, json, _, h
  | .float (Option.some _), depth, counter, json, _, h | .char _, depth, counter, json, _, h
  | .str _, depth, counter, json, _, h | .display _, depth, counter, json, _, h
  | .none, depth, counter, json, _, h | .unit, depth, counter, json, _, h
  | .unitStruct, depth, counter, json, _, h | .unitVariant _, depth, counter, json, _, h => by
    cases h
    exact charge_scalar counter rfl
  | .bytes value, depth, counter, json, _, h => by
    cases h
    exact charge_compound depth counter (foldlM_bytes (depth + 1) value)
  | .some value, depth, counter, json, hfinite, h
  | .newtypeStruct value, depth, counter, json, hfinite, h =>
    charge_eq value depth counter json hfinite h
  | .newtypeVariant variant value, depth, counter, json, hfinite, h => by
    obtain ⟨inner, hinner, rfl⟩ := Option.map_eq_some_iff.mp h
    rw [visits_variant]
    exact charge_compound depth counter fun counter => charge_eq value _ counter inner hfinite hinner
  | .seq items, depth, counter, json, hfinite, h | .tuple items, depth, counter, json, hfinite, h
  | .tupleStruct items, depth, counter, json, hfinite, h => by
    obtain ⟨inner, hinner, rfl⟩ := Option.map_eq_some_iff.mp h
    exact charge_compound depth counter fun counter =>
      chargeItems_eq items _ counter inner hfinite hinner
  | .tupleVariant variant items, depth, counter, json, hfinite, h => by
    obtain ⟨inner, hinner, rfl⟩ := Option.map_eq_some_iff.mp h
    rw [visits_variant]
    exact charge_compound depth counter fun counter => charge_compound (depth + 1) counter
      fun counter => chargeItems_eq items _ counter inner hfinite hinner
  | .map entries, depth, counter, json, hfinite, h => by
    obtain ⟨inner, hinner, rfl⟩ := Option.map_eq_some_iff.mp h
    exact charge_compound depth counter fun counter =>
      chargeEntries_eq entries _ counter inner hfinite hinner
  | .struct fields, depth, counter, json, hfinite, h => by
    obtain ⟨inner, hinner, rfl⟩ := Option.map_eq_some_iff.mp h
    exact charge_compound depth counter fun counter =>
      chargeFields_eq fields _ counter inner hfinite hinner
  | .structVariant variant fields, depth, counter, json, hfinite, h => by
    obtain ⟨inner, hinner, rfl⟩ := Option.map_eq_some_iff.mp h
    rw [visits_variant]
    exact charge_compound depth counter fun counter => charge_compound (depth + 1) counter
      fun counter => chargeFields_eq fields _ counter inner hfinite hinner

lemma chargeItems_eq :
    ∀ (items : List Serializable) (depth : Nat) (counter : NodeCounter) (json : List Json),
      FiniteItems items → jsonItems items = Option.some json →
      chargeItems limits depth counter items =
        (Json.visitsItems depth json).foldlM (NodeCounter.charge limits) counter
  | [], depth, counter, json, _, h => by
    cases h
    rfl
  | item :: rest, depth, counter, json, ⟨hitem, hrest⟩, h => by
    obtain ⟨first, hfirst, h⟩ := Option.bind_eq_some_iff.mp h
    obtain ⟨others, hothers, rfl⟩ := Option.map_eq_some_iff.mp h
    rw [chargeItems, charge_eq item depth counter first hitem hfirst, Json.visitsItems,
      List.foldlM_append]
    congr 1
    funext mid
    exact chargeItems_eq rest depth mid others hrest hothers

lemma chargeEntries_eq :
    ∀ (entries : List (Option String × Serializable)) (depth : Nat) (counter : NodeCounter)
      (json : List (String × Json)), FiniteEntries entries → jsonEntries entries = Option.some json →
      chargeEntries limits depth counter entries =
        (Json.visitsEntries depth json).foldlM (NodeCounter.charge limits) counter
  | [], depth, counter, json, _, h => by
    cases h
    rfl
  | (Option.none, _) :: _, _, _, _, _, h => by cases h
  | (Option.some key, item) :: rest, depth, counter, json, ⟨hitem, hrest⟩, h => by
    obtain ⟨first, hfirst, h⟩ := Option.bind_eq_some_iff.mp h
    obtain ⟨others, hothers, rfl⟩ := Option.map_eq_some_iff.mp h
    rw [chargeEntries, charge_eq item depth counter first hitem hfirst, Json.visitsEntries,
      List.foldlM_append]
    congr 1
    funext mid
    exact chargeEntries_eq rest depth mid others hrest hothers

lemma chargeFields_eq :
    ∀ (fields : List (String × Serializable)) (depth : Nat) (counter : NodeCounter)
      (json : List (String × Json)), FiniteFields fields → jsonFields fields = Option.some json →
      chargeFields limits depth counter fields =
        (Json.visitsEntries depth json).foldlM (NodeCounter.charge limits) counter
  | [], depth, counter, json, _, h => by
    cases h
    rfl
  | (_, item) :: rest, depth, counter, json, ⟨hitem, hrest⟩, h => by
    obtain ⟨first, hfirst, h⟩ := Option.bind_eq_some_iff.mp h
    obtain ⟨others, hothers, rfl⟩ := Option.map_eq_some_iff.mp h
    rw [chargeFields, charge_eq item depth counter first hitem hfirst, Json.visitsEntries,
      List.foldlM_append]
    congr 1
    funext mid
    exact chargeFields_eq rest depth mid others hrest hothers

end

mutual

lemma finite_of_charge :
    ∀ (value : Serializable) (depth : Nat) (counter counter' : NodeCounter),
      value.charge limits depth counter = .ok counter' → value.Finite
  | .float Option.none, _, _, _, h => by cases h
  | .float (Option.some _), _, _, _, _ => Option.some_ne_none _
  | .bool _, _, _, _, _ | .integer _, _, _, _, _ | .char _, _, _, _, _ | .str _, _, _, _, _
  | .display _, _, _, _, _ | .bytes _, _, _, _, _ | .none, _, _, _, _ | .unit, _, _, _, _
  | .unitStruct, _, _, _, _ | .unitVariant _, _, _, _, _ => trivial
  | .some value, depth, counter, _, h | .newtypeStruct value, depth, counter, _, h =>
    finite_of_charge value depth counter _ h
  | .newtypeVariant _ value, _, _, _, h => by
    obtain ⟨mid, -, h⟩ := Except.of_bind_ok h
    exact finite_of_charge value _ mid _ h
  | .seq items, _, _, _, h | .tuple items, _, _, _, h | .tupleStruct items, _, _, _, h => by
    obtain ⟨mid, -, h⟩ := Except.of_bind_ok h
    exact finite_of_chargeItems items _ mid _ h
  | .tupleVariant _ items, _, _, _, h => by
    obtain ⟨_, -, h⟩ := Except.of_bind_ok h
    obtain ⟨mid, -, h⟩ := Except.of_bind_ok h
    exact finite_of_chargeItems items _ mid _ h
  | .map entries, _, _, _, h => by
    obtain ⟨mid, -, h⟩ := Except.of_bind_ok h
    exact finite_of_chargeEntries entries _ mid _ h
  | .struct fields, _, _, _, h => by
    obtain ⟨mid, -, h⟩ := Except.of_bind_ok h
    exact finite_of_chargeFields fields _ mid _ h
  | .structVariant _ fields, _, _, _, h => by
    obtain ⟨_, -, h⟩ := Except.of_bind_ok h
    obtain ⟨mid, -, h⟩ := Except.of_bind_ok h
    exact finite_of_chargeFields fields _ mid _ h

lemma finite_of_chargeItems :
    ∀ (items : List Serializable) (depth : Nat) (counter counter' : NodeCounter),
      chargeItems limits depth counter items = .ok counter' → FiniteItems items
  | [], _, _, _, _ => trivial
  | item :: rest, depth, counter, _, h => by
    obtain ⟨mid, hitem, hrest⟩ := Except.of_bind_ok h
    exact ⟨finite_of_charge item depth counter mid hitem,
      finite_of_chargeItems rest depth mid _ hrest⟩

lemma finite_of_chargeEntries :
    ∀ (entries : List (Option String × Serializable)) (depth : Nat)
      (counter counter' : NodeCounter),
      chargeEntries limits depth counter entries = .ok counter' → FiniteEntries entries
  | [], _, _, _, _ => trivial
  | (_, item) :: rest, depth, counter, _, h => by
    obtain ⟨mid, hitem, hrest⟩ := Except.of_bind_ok h
    exact ⟨finite_of_charge item depth counter mid hitem,
      finite_of_chargeEntries rest depth mid _ hrest⟩

lemma finite_of_chargeFields :
    ∀ (fields : List (String × Serializable)) (depth : Nat) (counter counter' : NodeCounter),
      chargeFields limits depth counter fields = .ok counter' → FiniteFields fields
  | [], _, _, _, _ => trivial
  | (_, item) :: rest, depth, counter, _, h => by
    obtain ⟨mid, hitem, hrest⟩ := Except.of_bind_ok h
    exact ⟨finite_of_charge item depth counter mid hitem,
      finite_of_chargeFields rest depth mid _ hrest⟩

end

end Pass

/-! ### Measuring and decoding -/

lemma measure_eq_ok {value : Serializable} {limits : JsonLimits} {measured : JsonMeasurement} :
    value.measure limits = .ok measured ↔
      ∃ json counter bytes, value.json = Option.some json ∧ value.Finite ∧
        (json.visits 1).foldlM (NodeCounter.charge limits) {} = .ok counter ∧
        json.writes.foldlM (writeBytes limits.maxBytes) 0 = .ok bytes ∧
        measured = ⟨bytes, counter.nodes, counter.depth⟩ := by
  constructor
  · intro h
    obtain ⟨counter, hcount, h⟩ := Except.of_bind_ok h
    have hfinite := finite_of_charge value 1 _ _ hcount
    split at h
    · cases h
    · rename_i json hjson
      obtain ⟨bytes, hbytes, h⟩ := Except.of_bind_ok h
      cases h
      rw [charge_eq value 1 _ json hfinite hjson] at hcount
      exact ⟨json, counter, bytes, hjson, hfinite, hcount, hbytes, rfl⟩
  · rintro ⟨json, counter, bytes, hjson, hfinite, hcount, hbytes, rfl⟩
    rw [← charge_eq value 1 _ json hfinite hjson] at hcount
    rw [measure, hcount]
    show (match value.json with | Option.none => _ | Option.some json => _) = _
    rw [hjson]
    show (json.writes.foldlM (writeBytes limits.maxBytes) 0 >>= _) = _
    rw [hbytes]
    rfl

end Serializable

lemma foldlM_writeBytes_ok {maximum : Nat} (writes : List String) :
    ∀ observed, observed + Json.writtenBytes writes < 2 ^ 64 → observed ≤ maximum →
      ∀ bytes, writes.foldlM (writeBytes maximum) observed = .ok bytes ↔
        observed + Json.writtenBytes writes ≤ maximum ∧
          bytes = observed + Json.writtenBytes writes := by
  induction writes with
  | nil =>
    intro observed _ hle bytes
    rw [Json.writtenBytes_nil, Nat.add_zero]
    constructor
    · intro h
      cases h
      exact ⟨hle, rfl⟩
    · rintro ⟨-, rfl⟩
      rfl
  | cons write rest ih =>
    intro observed hsize hle bytes
    rw [Json.writtenBytes_cons, ← Nat.add_assoc] at hsize ⊢
    have hexact : min (observed + write.utf8ByteSize) (2 ^ 64 - 1) =
        observed + write.utf8ByteSize := by omega
    rw [List.foldlM_cons, writeBytes, hexact]
    split_ifs with hover
    · refine iff_of_false (fun h => by cases h) fun h => ?_
      omega
    · exact ih _ hsize (Nat.not_lt.mp hover) bytes

/-- **Measuring and decoding agree where every float is finite.**  A value is measured exactly
when its floats are finite and its text is decoded, and then the counts of the two agree. -/
theorem measuring_agrees_with_decoding {document : ByteArray → JsonDocument}
    {printed : Number → Prop} {reread : Number → Number}
    (hdocument : ReadsDocuments document printed reread) {limits : JsonLimits}
    (hdepth : limits.maxDepth ≤ RECURSION_LIMIT) (value : Serializable)
    (hvalue : ∀ json, value.json = some json →
      json.Numbers printed ∧ json.Distinct ∧ json.render.utf8ByteSize < 2 ^ 64) :
    ((value.measure limits).isOk = true ↔
      value.Finite ∧ ∃ json decoded, value.json = some json ∧
        decodeStrictJson document json.render.toByteArray limits = .ok decoded) ∧
    ∀ measured json decoded, value.measure limits = .ok measured → value.json = some json →
      decodeStrictJson document json.render.toByteArray limits = .ok decoded →
      measured.nodes = decoded.nodeCount ∧ measured.depth = decoded.maxDepth := by
  have hbytes : ∀ json, value.json = some json → ∀ bytes,
      json.writes.foldlM (writeBytes limits.maxBytes) 0 = .ok bytes ↔
        json.render.utf8ByteSize ≤ limits.maxBytes ∧ bytes = json.render.utf8ByteSize := by
    intro json hjson bytes
    have hsize := (hvalue json hjson).2.2
    rw [← Json.byteSize_eq_render] at hsize ⊢
    have hall := @foldlM_writeBytes_ok limits.maxBytes json.writes 0 (by rwa [Nat.zero_add])
      (Nat.zero_le _) bytes
    rwa [Nat.zero_add] at hall
  refine ⟨?_, ?_⟩
  · rw [Except.isOk_iff]
    constructor
    · rintro ⟨measured, hmeasured⟩
      obtain ⟨json, counter, bytes, hjson, hfinite, hcount, hwritten, -⟩ :=
        Serializable.measure_eq_ok.mp hmeasured
      obtain ⟨hnumbers, hdistinct, -⟩ := hvalue json hjson
      refine ⟨hfinite, json, _, hjson, (decode_render_eq_ok hdocument hnumbers hdepth).mpr
        ⟨((hbytes json hjson bytes).mp hwritten).1, hdistinct, ⟨counter, hcount⟩, rfl⟩⟩
    · rintro ⟨hfinite, json, decoded, hjson, hdecoded⟩
      obtain ⟨hsize, -, ⟨counter, hcount⟩, -⟩ :=
        (decode_render_eq_ok hdocument (hvalue json hjson).1 hdepth).mp hdecoded
      exact ⟨_, Serializable.measure_eq_ok.mpr ⟨json, counter, _, hjson, hfinite, hcount,
        (hbytes json hjson _).mpr ⟨hsize, rfl⟩, rfl⟩⟩
  · intro measured json decoded hmeasured hjson hdecoded
    obtain ⟨json', counter, bytes, hjson', -, hcount, -, rfl⟩ :=
      Serializable.measure_eq_ok.mp hmeasured
    obtain rfl : json = json' := Option.some.inj (hjson.symm.trans hjson')
    obtain ⟨-, hdistinct, -, rfl⟩ :=
      (decode_render_eq_ok hdocument (hvalue json hjson).1 hdepth).mp hdecoded
    have hshown := (Json.distinct_shown reread json).mpr hdistinct
    obtain ⟨hnodes, hdepths, -⟩ := foldlM_charge_ok hcount
    rw [Json.nodeCount_normalize hshown, Json.maxDepth_normalize hshown, Json.nodeCount,
      Json.maxDepth, Json.visits_shown]
    exact ⟨hnodes.trans (Nat.zero_add _), hdepths⟩

/-- A sequence with a variant in it. -/
theorem measuring_agrees_with_decoding_variant :
    ((Serializable.measure (.seq [.bool true, .newtypeVariant "text" (.str "a")])
        ⟨100, 10, 10⟩).isOk = true ↔
      Serializable.Finite (.seq [.bool true, .newtypeVariant "text" (.str "a")]) ∧
        ∃ json decoded,
          Serializable.json (.seq [.bool true, .newtypeVariant "text" (.str "a")]) = some json ∧
          decodeStrictJson (compactDocument asciiNumber) json.render.toByteArray ⟨100, 10, 10⟩ = .ok decoded) ∧
    ∀ measured json decoded,
      Serializable.measure (.seq [.bool true, .newtypeVariant "text" (.str "a")])
        ⟨100, 10, 10⟩ = .ok measured →
      Serializable.json (.seq [.bool true, .newtypeVariant "text" (.str "a")]) = some json →
      decodeStrictJson (compactDocument asciiNumber) json.render.toByteArray ⟨100, 10, 10⟩ = .ok decoded →
      measured.nodes = decoded.nodeCount ∧ measured.depth = decoded.maxDepth := by
  refine measuring_agrees_with_decoding (compactDocument_reads asciiNumber_reads) (by decide) _ fun json hjson => ?_
  obtain rfl : Json.array [.bool true, .object [("text", .string "a")]] = json :=
    Option.some.inj hjson
  refine ⟨⟨trivial, ⟨trivial, trivial⟩, trivial⟩, ⟨trivial, ⟨?_, trivial, trivial⟩, trivial⟩, ?_⟩
  · exact List.nodup_singleton _
  · decide

/-- A float that is not finite is written as null and decoded, but not measured. -/
theorem nonfinite_is_decoded_but_not_measured :
    (∀ json, (Serializable.float none).json = some json → json.Distinct) ∧
      10 ≤ RECURSION_LIMIT ∧
      ¬(((Serializable.float none).measure ⟨100, 10, 10⟩).isOk = true ↔
        ∃ json decoded, (Serializable.float none).json = some json ∧
          decodeStrictJson (compactDocument asciiNumber) json.render.toByteArray ⟨100, 10, 10⟩ = .ok decoded) := by
  refine ⟨fun json hjson => ?_, by decide, fun h => ?_⟩
  · cases hjson
    trivial
  · have hdecoded : decodeStrictJson (compactDocument asciiNumber) Json.null.render.toByteArray ⟨100, 10, 10⟩ =
        .ok .null :=
      (decode_render_eq_ok (compactDocument_reads asciiNumber_reads) (show Json.null.Numbers PlainNumber from trivial)
        (by decide)).mpr
        ⟨by decide, trivial, ⟨⟨1, 1⟩, rfl⟩, rfl⟩
    have hmeasured := h.mpr ⟨.null, .null, rfl, hdecoded⟩
    cases hmeasured

end Antiburn
