/-
JSON objects that are built field by field, some of the fields missing.

`Built entries fields` says what a map holds after all insertions and removals,
each field with its value or with none.  Reading a key, the closed set of keys and
the size of the object then follow from the list of the fields, whatever the order
in which they were written.
-/
import Antiburn.EncodedJson
import Antiburn.SavedRoundTrip

namespace Antiburn

/-- `value[key] = field`, on an object. -/
def Json.assign (value : Json) (key : String) (field : Json) : Json :=
  match value with
  | .object entries => .object (Object.insert entries key field)
  | value => value

/-- `value[outer][inner] = field`, on an object of objects. -/
def Json.assignIn (value : Json) (outer inner : String) (field : Json) : Json :=
  value.assign outer ((value.index outer).assign inner field)

def jsonText (text : Option String) : Json := text.elim .null .string

def jsonField (key : String) (value : Option Json) : Object :=
  (value.map fun value => (key, value)).toList

namespace Object

def insertSome (entries : Object) (key : String) : Option Json → Object
  | none => entries
  | some value => entries.insert key value

def removeIf (entries : Object) (missing : Bool) (key : String) : Object :=
  if missing then entries.remove key else entries

def presentFields (fields : List (String × Option Json)) : Object :=
  fields.flatMap fun field => jsonField field.1 field.2

/-- The map holds exactly the fields that are present. -/
def Built (entries : Object) (fields : List (String × Option Json)) : Prop :=
  entries.Perm (presentFields fields)

variable {entries : Object} {fields before after : List (String × Option Json)} {key : String}

lemma present_append (before after : List (String × Option Json)) :
    presentFields (before ++ after) = presentFields before ++ presentFields after := List.flatMap_append

lemma mem_present {name : String} {value : Json} :
    (name, value) ∈ presentFields fields ↔ (name, some value) ∈ fields := by
  unfold presentFields
  rw [List.mem_flatMap]
  constructor
  · rintro ⟨⟨name', found⟩, hmem, hfield⟩
    cases found with
    | none => cases hfield
    | some found =>
      cases List.mem_singleton.mp hfield
      exact hmem
  · intro hmem
    exact ⟨_, hmem, List.mem_singleton.mpr rfl⟩

lemma keys_present_sublist (fields : List (String × Option Json)) :
    ((presentFields fields).map Prod.fst).Sublist (fields.map Prod.fst) := by
  induction fields with
  | nil => exact List.Sublist.refl _
  | cons field rest ih =>
    obtain ⟨name, value⟩ := field
    cases value with
    | none => exact ih.cons _
    | some value => exact ih.cons_cons _

lemma notMem_keys_present (h : key ∉ fields.map Prod.fst) : key ∉ (presentFields fields).map Prod.fst :=
  fun hmem => h ((keys_present_sublist fields).subset hmem)

/-! ### What is inserted and removed -/

lemma Built.ofFields (hkeys : (fields.map Prod.fst).Nodup) :
    Built (ofFields (presentFields fields)) fields :=
  (@extend_spec [] (presentFields fields) .nil (hkeys.sublist (keys_present_sublist fields))
    fun _ _ h => by cases h).2

lemma Built.insertSome (h : Built entries fields) (value : Option Json)
    (hkey : key ∉ fields.map Prod.fst) :
    Built (entries.insertSome key value) (fields ++ [(key, value)]) := by
  unfold Built at h ⊢
  rw [present_append]
  cases value with
  | none =>
    show entries.Perm (presentFields fields ++ [])
    rw [List.append_nil]
    exact h
  | some value =>
    show (entries.insert key value).Perm (presentFields fields ++ [(key, value)])
    have hnew : key ∉ entries.map Prod.fst :=
      fun hmem => notMem_keys_present hkey ((h.map Prod.fst).mem_iff.mp hmem)
    rw [insert_eq_orderedInsert value hnew]
    refine (List.perm_orderedInsert _ _ _).trans ?_
    exact (h.cons _).trans (List.perm_append_singleton _ _).symm

lemma Built.removeIf {value : Option Json}
    (h : Built entries (before ++ (key, some (value.getD .null)) :: after))
    (hkey : key ∉ (before ++ after).map Prod.fst) :
    Built (entries.removeIf value.isNone key) (before ++ (key, value) :: after) := by
  cases value with
  | some value => exact h
  | none =>
    unfold Built at h ⊢
    rw [present_append] at h ⊢
    show (entries.remove key).Perm (presentFields before ++ presentFields after)
    have hkept : (presentFields (before ++ after)).remove key = presentFields (before ++ after) := by
      refine List.filter_eq_self.mpr fun entry hentry => bne_iff_ne.mpr ?_
      rintro rfl
      exact notMem_keys_present hkey (List.mem_map_of_mem hentry)
    rw [present_append] at hkept
    rw [← hkept]
    refine (h.filter _).trans ?_
    show ((presentFields before ++ (key, .null) :: presentFields after).filter _).Perm _
    unfold remove
    rw [List.filter_append, List.filter_append, List.filter_cons_of_neg (by simp)]

/-! ### What is read -/

section

variable (h : Built entries fields)
include h

lemma Built.keys_nodup (hkeys : (fields.map Prod.fst).Nodup) :
    (entries.map Prod.fst).Nodup :=
  (h.map Prod.fst).nodup_iff.mpr (hkeys.sublist (keys_present_sublist fields))

lemma Built.get?_of_notMem (hkey : key ∉ fields.map Prod.fst) :
    entries.get? key = none := by
  cases hget : entries.get? key with
  | none => rfl
  | some value =>
    have hmem := h.mem_iff.mp (mem_of_get? hget)
    exact absurd (List.mem_map_of_mem hmem) (notMem_keys_present hkey)

lemma Built.get? (hkeys : (fields.map Prod.fst).Nodup)
    {value : Option Json} (hmem : (key, value) ∈ fields) : entries.get? key = value := by
  cases value with
  | some value => exact get?_of_mem (h.keys_nodup hkeys) (h.mem_iff.mpr (mem_present.mpr hmem))
  | none =>
    cases hget : entries.get? key with
    | none => rfl
    | some value =>
      have hfound := mem_present.mp (h.mem_iff.mp (mem_of_get? hget))
      have hsame := List.inj_on_of_nodup_map hkeys hfound hmem rfl
      cases hsame

lemma Built.all_iff {p : String × Json → Bool} :
    entries.all p = true ↔ ∀ field ∈ fields, ∀ value ∈ field.2, p (field.1, value) = true := by
  rw [List.all_eq_true]
  constructor
  · rintro hall ⟨name, found⟩ hmem value rfl
    exact hall _ (h.mem_iff.mpr (mem_present.mpr hmem))
  · rintro hall ⟨name, value⟩ hmem
    exact hall _ (mem_present.mp (h.mem_iff.mp hmem)) value rfl

end

end Object

/-! ### The size of a built object -/

namespace Json

open Object

def keyBytes (key : String) : Nat := writtenBytes (stringWrites key) + 2

def fieldBytes (field : String × Option Json) : Nat :=
  field.2.elim 0 fun value => keyBytes field.1 + value.byteSize

def optionNodes (value : Option Json) : Nat := value.elim 0 nodeCount

variable {entries : Object} {fields : List (String × Option Json)}

lemma sum_present (f : String × Json → Nat) (fields : List (String × Option Json)) :
    ((presentFields fields).map f).sum =
      (fields.map fun field => field.2.elim 0 fun value => f (field.1, value)).sum := by
  induction fields with
  | nil => rfl
  | cons field rest ih =>
    obtain ⟨name, value⟩ := field
    rw [List.map_cons, List.sum_cons, ← ih]
    cases value with
    | none => exact (Nat.zero_add _).symm
    | some value => exact List.sum_cons

lemma byteSize_built (h : Built entries fields) (hsome : ∃ field ∈ fields, field.2.isSome) :
    (object entries).byteSize = 1 + (fields.map fieldBytes).sum := by
  have hsum : (entries.map fun entry => entryBytes entry + 1).sum =
      (fields.map fieldBytes).sum := by
    rw [(h.map _).sum_eq, sum_present]
    refine congrArg List.sum (List.map_congr_left fun field _ => ?_)
    unfold fieldBytes
    cases field.2 with
    | none => rfl
    | some value =>
      show entryBytes (field.1, value) + 1 = keyBytes field.1 + value.byteSize
      unfold entryBytes keyBytes
      dsimp only
      omega
  have hpos : 0 < (fields.map fieldBytes).sum := by
    obtain ⟨⟨name, value⟩, hmem, hvalue⟩ := hsome
    obtain ⟨value, rfl⟩ := Option.isSome_iff_exists.mp hvalue
    have hle : fieldBytes (name, some value) ≤ (fields.map fieldBytes).sum :=
      List.single_le_sum (fun _ _ => Nat.zero_le _) _ (List.mem_map_of_mem hmem)
    have hkey : 2 ≤ fieldBytes (name, some value) := by
      show 2 ≤ writtenBytes (stringWrites name) + 2 + value.byteSize
      omega
    omega
  rw [byteSize_object, hsum]
  omega

mutual

lemma length_visits (depth depth' : Nat) : ∀ value : Json,
    (value.visits depth).length = (value.visits depth').length
  | .array items => congrArg Nat.succ (length_visitsItems_eq (depth + 1) (depth' + 1) items)
  | .object entries => congrArg Nat.succ (length_visitsEntries_eq (depth + 1) (depth' + 1) entries)
  | .null | .bool _ | .number _ | .string _ => rfl

lemma length_visitsItems_eq (depth depth' : Nat) : ∀ items : List Json,
    (visitsItems depth items).length = (visitsItems depth' items).length
  | [] => rfl
  | item :: rest => by
    rw [visitsItems, visitsItems, List.length_append, List.length_append,
      length_visits depth depth' item, length_visitsItems_eq depth depth' rest]

lemma length_visitsEntries_eq (depth depth' : Nat) : ∀ entries : List (String × Json),
    (visitsEntries depth entries).length = (visitsEntries depth' entries).length
  | [] => rfl
  | (_, item) :: rest => by
    rw [visitsEntries, visitsEntries, List.length_append, List.length_append,
      length_visits depth depth' item, length_visitsEntries_eq depth depth' rest]

end

lemma nodeCount_built (h : Built entries fields) :
    (object entries).nodeCount = 1 + (fields.map fun field => optionNodes field.2).sum := by
  show (visitsEntries 2 entries).length + 1 = _
  rw [Nat.add_comm, visitsEntries_eq, length_visitsItems, List.map_map, (h.map _).sum_eq,
    sum_present]
  refine congrArg (1 + ·) (congrArg List.sum (List.map_congr_left fun field _ => ?_))
  cases field.2 with
  | none => rfl
  | some value => exact length_visits 2 1 value

lemma mem_visits_built (h : Built entries fields) {depth d : Nat} :
    d ∈ (object entries).visits depth ↔
      d = depth ∨ ∃ field ∈ fields, ∃ value ∈ field.2, d ∈ value.visits (depth + 1) := by
  show d ∈ depth :: visitsEntries (depth + 1) entries ↔ _
  rw [List.mem_cons, visitsEntries_eq, mem_visitsItems]
  refine or_congr_right ⟨?_, ?_⟩
  · rintro ⟨value, hvalue, hd⟩
    obtain ⟨⟨name, value⟩, hmem, rfl⟩ := List.mem_map.mp hvalue
    exact ⟨_, mem_present.mp (h.mem_iff.mp hmem), value, rfl, hd⟩
  · rintro ⟨⟨name, found⟩, hmem, value, rfl, hd⟩
    exact ⟨value, List.mem_map.mpr ⟨_, h.mem_iff.mpr (mem_present.mpr hmem), rfl⟩, hd⟩

end Json

end Antiburn
