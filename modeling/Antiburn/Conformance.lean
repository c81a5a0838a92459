/-
What a shape promises of a value, and that every step keeps the promise.

A JSON value conforms to a shape when it has the structure that the compiler
assumes: closed records hold declared fields only, optional fields may be
absent, and a fixed array has exactly its declared count.  Below an open shape
nothing is promised.  The four walks of the compiler over a shape (a property,
a fixed index, a run-time key, a projection) each come with two lemmas: the
child that the step selects conforms to the shape that the walk returns, and
the value has the JSON kind that the step needs.
-/
import Antiburn.Access
import Antiburn.Lib.Except

namespace Antiburn

/-! ### Equality of shapes -/

namespace ValueShape

mutual

lemma eq_of_beq (left right : ValueShape) (h : beq left right = true) : left = right := by
  cases left with
  | scalar | opened => cases right <;> simp_all [beq]
  | array item =>
    cases right with
    | array other => rw [eq_of_beq item other h]
    | _ => simp [beq] at h
  | fixedArray item count =>
    cases right with
    | fixedArray other length =>
      simp only [beq, Bool.and_eq_true, beq_iff_eq] at h
      rw [eq_of_beq item other h.1, h.2]
    | _ => simp [beq] at h
  | record left =>
    cases right with
    | record right =>
      simp only [beq, beq_iff_eq] at h
      rw [h]
    | _ => simp [beq] at h
  | alternatives items =>
    cases right with
    | alternatives others => rw [eq_of_beqItems items others h]
    | _ => simp [beq] at h

lemma eq_of_beqItems (items others : List ValueShape) (h : beqItems items others = true) :
    items = others := by
  cases items with
  | nil => cases others <;> simp_all [beqItems]
  | cons item rest =>
    cases others with
    | nil => simp [beqItems] at h
    | cons other others =>
      simp only [beqItems, Bool.and_eq_true] at h
      rw [eq_of_beq item other h.1, eq_of_beqItems rest others h.2]

end

/-! ### Open parts -/

mutual

/-- Whether nothing is known of some value of the shape. -/
def holdsOpen : ValueShape → Bool
  | .opened => true
  | .alternatives items => anyOpen items
  | _ => false

@[inherit_doc holdsOpen]
def anyOpen : List ValueShape → Bool
  | [] => false
  | item :: rest => holdsOpen item || anyOpen rest

end

lemma holdsOpen_of_mem {item : ValueShape} {items : List ValueShape} (hitem : item ∈ items)
    (h : anyOpen items = false) : holdsOpen item = false := by
  induction items with
  | nil => cases hitem
  | cons head rest ih =>
    simp only [anyOpen, Bool.or_eq_false_iff] at h
    rcases List.mem_cons.mp hitem with rfl | hitem
    · exact h.1
    · exact ih hitem h.2

end ValueShape

/-! ### Conformance -/

namespace Validator

variable (v : Validator)

/-- The fields that a record holds besides its declared ones: legacy tool
results carry their native order. -/
def undeclaredField (record : ContextRecord) (key : String) (json : Json) : Prop :=
  record = .message ∧ key = "native_order" ∧ json.isContainer = false

inductive Conforms : ValueShape → Json → Prop
  | scalar {json : Json} (kind : json.isContainer = false) : Conforms .scalar json
  | opened (json : Json) : Conforms .opened json
  | array {item : ValueShape} {items : List Json} (each : ∀ json ∈ items, Conforms item json) :
      Conforms (.array item) (.array items)
  | fixedArray {item : ValueShape} {count : Nat} {items : List Json}
      (exact : items.length = count) (each : ∀ json ∈ items, Conforms item json) :
      Conforms (.fixedArray item count) (.array items)
  | record {record : ContextRecord} {entries : Object}
      (declared : ∀ key json, (key, json) ∈ entries →
        (v.recordField record key).isOk = true ∨ undeclaredField record key json)
      (fields : ∀ key json shape, (key, json) ∈ entries →
        v.recordField record key = .ok shape → Conforms shape json) :
      Conforms (.record record) (.object entries)
  | alternatives {items : List ValueShape} {item : ValueShape} {json : Json} (mem : item ∈ items)
      (one : Conforms item json) : Conforms (.alternatives items) json

variable {v}

lemma Conforms.truthy {shape : ValueShape} {json : Json} (h : v.Conforms shape json)
    (htrue : alwaysTrue shape = true) : isTruthy json = true := by
  cases h with
  | array | fixedArray | record => rfl
  | scalar | opened | alternatives => cases htrue

/-! ### Properties -/

variable {other : AccessResult} {rule : IndexRule} {items : List ValueShape} {item : ValueShape}

variable {key : String}

lemma propertyShape_array (each : ValueShape) : v.propertyShape key (.array each) =
    if key = "length" then .ok .scalar else .error noChildField := rfl

lemma propertyShape_fixedArray (each : ValueShape) (count : Nat) :
    v.propertyShape key (.fixedArray each count) =
      if key = "length" then .ok .scalar else .error noChildField := rfl

lemma exists_propertyShape {shapes : List ValueShape}
    (h : v.propertyShapes key items = .ok shapes) (hitem : item ∈ items) :
    ∃ shape ∈ shapes, v.propertyShape key item = .ok shape := by
  induction items generalizing shapes with
  | nil => cases hitem
  | cons head rest ih =>
    obtain ⟨shape, hhead, h⟩ := Except.of_bind_ok h
    obtain ⟨others, hrest, h⟩ := Except.of_bind_ok h
    cases h
    rcases List.mem_cons.mp hitem with rfl | hitem
    · exact ⟨shape, List.mem_cons_self, hhead⟩
    · obtain ⟨found, hfound, hshape⟩ := ih hrest hitem
      exact ⟨found, List.mem_cons_of_mem _ hfound, hshape⟩

lemma propertyShape_alternatives {next : ValueShape}
    (h : v.propertyShape key (.alternatives items) = .ok next) :
    ∃ shapes, v.propertyShapes key items = .ok shapes ∧ next = .alternatives shapes := by
  change (if items.isEmpty then _ else _ : AccessResult) = _ at h
  split_ifs at h with hempty
  · cases h
  · obtain ⟨shapes, hshapes, h⟩ := Except.of_bind_ok h
    cases h
    exact ⟨shapes, hshapes, rfl⟩

def propertyOf (key : String) : Json → Option Json
  | .object entries => Object.get? entries key
  | .array items => if key = "length" then some (.number (.ofNat items.length)) else none
  | _ => none

variable {shape next : ValueShape}

lemma Conforms.property {json child : Json}
    (h : v.Conforms shape json) (hnext : v.propertyShape key shape = .ok next)
    (hchild : propertyOf key json = some child) : v.Conforms next child := by
  induction h generalizing next with
  | scalar kind => cases hnext
  | opened json =>
    cases hnext
    exact .opened child
  | array each | fixedArray exact each =>
    rw [propertyOf] at hchild
    simp only [propertyShape_array, propertyShape_fixedArray] at hnext
    split_ifs at hchild hnext with hkey
    cases hchild
    cases hnext
    exact .scalar rfl
  | record declared fields => exact fields key child next (Object.mem_of_get? hchild) hnext
  | alternatives mem one ih =>
    obtain ⟨shapes, hshapes, rfl⟩ := propertyShape_alternatives hnext
    obtain ⟨found, hfound, hshape⟩ := exists_propertyShape hshapes mem
    exact .alternatives hfound (ih hshape hchild)

def hasProperties (key : String) : Json → Bool
  | .object _ => true
  | .array _ => key = "length"
  | _ => false

lemma Conforms.hasProperties {json : Json}
    (h : v.Conforms shape json) (hnext : v.propertyShape key shape = .ok next)
    (hopen : shape.holdsOpen = false) : hasProperties key json = true := by
  induction h generalizing next with
  | scalar kind => cases hnext
  | opened json => cases hopen
  | array each | fixedArray exact each =>
    simp only [propertyShape_array, propertyShape_fixedArray] at hnext
    split_ifs at hnext with hkey
    exact decide_eq_true hkey
  | record declared fields => rfl
  | alternatives mem one ih =>
    obtain ⟨shapes, hshapes, rfl⟩ := propertyShape_alternatives hnext
    obtain ⟨found, -, hshape⟩ := exists_propertyShape hshapes mem
    exact ih hshape (ValueShape.holdsOpen_of_mem mem hopen)

/-! ### Indexes and projections -/

lemma exists_indexShape {shapes : List ValueShape}
    (h : rule.shapes items = .ok shapes) (hitem : item ∈ items) :
    ∃ shape ∈ shapes, rule.shape item = .ok shape := by
  induction items generalizing shapes with
  | nil => cases hitem
  | cons head rest ih =>
    obtain ⟨shape, hhead, h⟩ := Except.of_bind_ok h
    obtain ⟨others, hrest, h⟩ := Except.of_bind_ok h
    cases h
    rcases List.mem_cons.mp hitem with rfl | hitem
    · exact ⟨shape, List.mem_cons_self, hhead⟩
    · obtain ⟨found, hfound, hshape⟩ := ih hrest hitem
      exact ⟨found, List.mem_cons_of_mem _ hfound, hshape⟩

lemma indexShape_alternatives {next : ValueShape}
    (h : rule.shape (.alternatives items) = .ok next) :
    ∃ shapes, rule.shapes items = .ok shapes ∧ next = .alternatives shapes := by
  obtain ⟨shapes, hshapes, h⟩ := Except.of_bind_ok h
  cases h
  exact ⟨shapes, hshapes, rfl⟩

/-- A rule promises no more of the children of a value than holds of them.
Arrays of either sort pass on the shape of their items. -/
structure IndexRule.Keeps (v : Validator) (rule : IndexRule) (child : Json → Json → Prop) : Prop where
  array : ∀ {item next}, rule.array item = .ok next → next = item
  fixedArray : ∀ {item count next}, rule.fixedArray item count = .ok next → next = item
  items : ∀ {items json}, child (.array items) json → json ∈ items
  record : ∀ {record next json} {entries : Object}, rule.record record = .ok next →
    v.Conforms (.record record) (.object entries) → child (.object entries) json →
      v.Conforms next json
  scalar : ∀ {next}, rule.scalar ≠ .ok next

lemma Conforms.child {rule : IndexRule} {child : Json → Json → Prop}
    (hrule : IndexRule.Keeps v rule child) {json selected : Json}
    (h : v.Conforms shape json) (hnext : rule.shape shape = .ok next)
    (hchild : child json selected) : v.Conforms next selected := by
  induction h generalizing next with
  | scalar kind => exact absurd hnext hrule.scalar
  | opened json =>
    cases hnext
    exact .opened selected
  | array each =>
    rw [hrule.array hnext]
    exact each selected (hrule.items hchild)
  | fixedArray exact each =>
    rw [hrule.fixedArray hnext]
    exact each selected (hrule.items hchild)
  | record declared fields => exact hrule.record hnext (.record declared fields) hchild
  | alternatives mem one ih =>
    obtain ⟨shapes, hshapes, rfl⟩ := indexShape_alternatives hnext
    obtain ⟨found, hfound, hshape⟩ := exists_indexShape hshapes mem
    exact .alternatives hfound (ih hshape hchild)

lemma Conforms.kind {rule : IndexRule} (hscalar : ∀ next, rule.scalar ≠ .ok next) {json : Json} (h : v.Conforms shape json)
    (hnext : rule.shape shape = .ok next) (hopen : shape.holdsOpen = false) :
    (∃ items, json = .array items) ∨
      ∃ entries record next, json = .object entries ∧ rule.record record = .ok next := by
  induction h generalizing next with
  | scalar kind => exact absurd hnext (hscalar next)
  | opened json => cases hopen
  | array each => exact .inl ⟨_, rfl⟩
  | fixedArray exact each => exact .inl ⟨_, rfl⟩
  | record declared fields => exact .inr ⟨_, _, _, rfl, hnext⟩
  | alternatives mem one ih =>
    obtain ⟨shapes, hshapes, rfl⟩ := indexShape_alternatives hnext
    obtain ⟨found, -, hshape⟩ := exists_indexShape hshapes mem
    exact ih hshape (ValueShape.holdsOpen_of_mem mem hopen)

def itemOf (index : Nat) : Json → Option Json
  | .array items => items[index]?
  | _ => none

lemma indexRule_keeps (bound : Option Nat) (index : Nat) :
    IndexRule.Keeps v (indexRule bound) fun json child => itemOf index json = some child where
  array h := by
    cases h
    rfl
  fixedArray h := by
    dsimp only [indexRule] at h
    split_ifs at h with hbound
    cases h
    rfl
  items h := List.mem_of_getElem? h
  record h := by cases h
  scalar h := by cases h

/-- The value that a run-time key selects; a text names a property. -/
def childOf : PathSegment → Json → Option Json
  | .property key, json => propertyOf key json
  | .index index, json => itemOf index json

lemma dynamicRule_keeps (seg : PathSegment) :
    IndexRule.Keeps v dynamicRule fun json child =>
      (seg = .property "length" → ∀ items, json ≠ .array items) ∧
        childOf seg json = some child where
  array h := by
    cases h
    rfl
  fixedArray h := by
    cases h
    rfl
  items := by
    rintro items json ⟨hlen, h⟩
    cases seg with
    | property key =>
      rw [childOf, propertyOf] at h
      split_ifs at h with hkey
      exact absurd rfl (hlen (by rw [hkey]) items)
    | index index => exact List.mem_of_getElem? h
  record := by
    rintro record next json entries hnext hvalue ⟨-, h⟩
    cases seg with
    | index index => cases h
    | property key =>
      have hmem : (key, json) ∈ entries := Object.mem_of_get? h
      cases record with
      | probabilities index question =>
        cases hnext
        cases hvalue with
        | record declared fields =>
          refine fields key json .scalar hmem ?_
          rcases declared key json hmem with hfield | ⟨hrecord, -⟩
          · simp only [recordField] at hfield ⊢
            split_ifs at hfield ⊢ with hlabel
            · rfl
            · cases hfield
          · cases hrecord
      | _ => cases hnext
  scalar h := by cases h

def isProjected (json child : Json) : Prop :=
  ∃ entries segment, projectionEntries json = some entries ∧ (segment, child) ∈ entries

lemma isProjected_array {items : List Json} {child : Json} (h : isProjected (.array items) child) :
    child ∈ items := by
  obtain ⟨entries, seg, hents, hmem⟩ := h
  cases hents
  obtain ⟨⟨item, index⟩, hitem, heq⟩ := List.mem_map.mp hmem
  cases heq
  exact List.mem_of_getElem? (List.mem_zipIdx_iff_getElem?.mp hitem)

lemma isProjected_object {entries : Object} {child : Json}
    (h : isProjected (.object entries) child) : ∃ key, (key, child) ∈ entries := by
  obtain ⟨steps, seg, hsteps, hmem⟩ := h
  cases hsteps
  obtain ⟨⟨key, value⟩, hentry, heq⟩ := List.mem_map.mp hmem
  cases heq
  exact ⟨key, hentry⟩

/-! ### The fields of a projected record -/

lemma mem_scalarOr {scalars : List String}
    (h : (scalarOr scalars key other).isOk = true) : key ∈ scalars ∨ other.isOk = true := by
  rw [scalarOr] at h
  split_ifs at h with hkey
  · exact .inl (List.contains_iff_mem.mp hkey)
  · exact .inr h

lemma mem_inventoryFields (h : (inventoryField key other).isOk = true) :
    key ∈ recordFields.inventoryFields ∨ other.isOk = true := by
  unfold inventoryField at h
  split at h
  · exact .inl (by decide)
  · exact .inl (by decide)
  · exact .inl (by decide)
  · exact .inl (by decide)
  · refine (mem_scalarOr h).imp (fun hkey => ?_) id
    exact (by decide : ["instructions_complete", "skills_complete", "snapshot_revision"] ⊆ _) hkey

lemma mem_recordFields {record : ContextRecord}
    (h : (v.recordField record key).isOk = true) : key ∈ v.recordFields record := by
  have unknown : ∀ {p : Prop}, Except.isOk (.error (unknownField key) : AccessResult) = true → p :=
    fun h => by cases h
  have listed : ∀ {scalars : List String}, scalars ⊆ v.recordFields record →
      (scalarOr scalars key (.error (unknownField key))).isOk = true →
        key ∈ v.recordFields record :=
    fun hsub h => (mem_scalarOr h).elim (fun hkey => hsub hkey) unknown
  cases record with
  | session =>
    simp only [recordField] at h
    split at h
    · simp [recordFields]
    · split_ifs at h with hstart
      · simp [recordFields, hstart]
      · cases h
    · split_ifs at h with hidle
      · simp [recordFields, hidle]
      · cases h
    · split_ifs at h with hidle
      · simp [recordFields, hidle]
      · cases h
    · exact listed (by simp [recordFields]) h
  | request | outcome | skill => exact listed (fun _ hkey => hkey) h
  | turn | message | quality | tool | result | instruction =>
    -- declared containers first, the scalars of the record last
    simp only [recordField] at h
    split at h
    all_goals first
      | exact listed (by simp [recordFields, qualityFields]) h
      | simp [recordFields]
  | window | agent | instructionScope =>
    simp only [recordField] at h
    split at h
    all_goals first
      | exact unknown h
      | simp [recordFields]
  | global => exact (mem_inventoryFields h).elim id unknown
  | repo =>
    simp only [recordField] at h
    split at h
    · simp [recordFields]
    · cases h
    · rcases mem_inventoryFields h with hkey | hother
      · exact List.mem_append_left _ hkey
      · exact unknown hother
  | decisions =>
    simp only [recordField] at h
    split at h
    · next index hindex =>
      obtain ⟨hlt, hname, -⟩ := List.findIdx?_eq_some_iff_getElem.mp hindex
      exact List.mem_map.mpr ⟨_, List.getElem_mem hlt, beq_iff_eq.mp hname⟩
    · cases h
  | decision index =>
    simp only [recordField] at h
    split at h
    · simp [recordFields]
    · simp [recordFields]
    · exact unknown h
  | outputs index =>
    simp only [recordField] at h
    split_ifs at h with hname
    · cases hdec : v.decisions[index]? with
      | none => simp [hdec] at hname
      | some decision =>
        simp only [hdec, Option.any_some, List.any_eq_true, beq_iff_eq] at hname
        simpa [recordFields, hdec] using hname
    · exact unknown h
  | details index =>
    simp only [recordField] at h
    cases hdec : v.decisions[index]? with
    | none => simp [hdec, Except.isOk, Except.toBool] at h
    | some decision =>
      simp only [hdec, Option.bind_some] at h
      split at h
      · next question hquestion =>
        obtain ⟨hlt, hname, -⟩ := List.findIdx?_eq_some_iff_getElem.mp hquestion
        simp only [recordFields, hdec, Option.map_some, Option.getD_some]
        exact List.mem_map.mpr ⟨_, List.getElem_mem hlt, beq_iff_eq.mp hname⟩
      · cases h
  | questionDetails index question =>
    cases hsymb : v.question? index question with
    | none => simp [recordField, hsymb, unknownField, Except.isOk, Except.toBool] at h
    | some symbols =>
      simp only [recordField, hsymb] at h
      simp only [recordFields, hsymb, Option.any_some]
      split at h
      · split at h <;> simp_all
        cases h
      · split_ifs at h with hkind
        · exact unknown h
        · simp_all
      · exact unknown h
  | probabilities index question =>
    simp only [recordField] at h
    split_ifs at h with hlabel
    · cases hsymb : v.question? index question with
      | none => simp [hsymb] at hlabel
      | some symbols => simpa [recordFields, hsymb] using hlabel
    · exact unknown h

lemma projectionRule_keeps : IndexRule.Keeps v v.projectionRule isProjected where
  array h := by
    cases h
    rfl
  fixedArray h := by
    cases h
    rfl
  items h := isProjected_array h
  record := by
    rintro record next json entries hnext hvalue hchild
    obtain ⟨key, hmem⟩ := isProjected_object hchild
    obtain ⟨shapes, hshapes, hnext⟩ := Except.of_bind_ok hnext
    cases hnext
    cases hvalue with
    | record declared fields =>
      rcases declared key json hmem with hfield | ⟨rfl, rfl, hkind⟩
      · obtain ⟨shape, hshape, hresol⟩ := Except.exists_mapM hshapes (mem_recordFields hfield)
        exact .alternatives hshape (fields key json shape hmem hresol)
      · obtain ⟨shape, hshape, hresol⟩ := Except.exists_mapM hshapes
          (List.mem_cons_self : "id" ∈ v.recordFields .message)
        cases hresol
        exact .alternatives hshape (.scalar hkind)
  scalar h := by cases h

end Validator

end Antiburn
