/-
JSON values as the engine holds them.

Objects are the sorted association lists a `BTreeMap<String, Value>` iterates:
`Object.insert` keeps key order, `Object.get?` reads the first match.  A number
is its printed text; `serde_json` prints every `Number` in exactly one way, and
the expression evaluator reads numbers only through that text.
-/
import Mathlib

namespace Antiburn

/-- A JSON number, kept as the text `serde_json` prints for it. -/
structure Number where
  text : String
  deriving DecidableEq

namespace Number

def ofNat (n : Nat) : Number := ⟨toString n⟩

def digitsValue (digits : List Char) : Nat :=
  digits.foldl (fun value digit => value * 10 + (digit.toNat - '0'.toNat)) 0

/-- `Number::as_u64`: only nonnegative integers print without sign, dot or exponent. -/
def asU64 (number : Number) : Option Nat :=
  if number.text.toList.all Char.isDigit then some (digitsValue number.text.toList) else none

end Number

/-- `serde_json::Value`. -/
inductive Json where
  | null
  | bool (value : Bool)
  | number (value : Number)
  | string (value : String)
  | array (items : List Json)
  | object (entries : List (String × Json))
  deriving Inhabited

def jsonEscape (c : Char) : Option String :=
  if c == '"' then some "\\\""
  else if c == '\\' then some "\\\\"
  else if c == '\n' then some "\\n"
  else if c == '\r' then some "\\r"
  else if c == '\t' then some "\\t"
  else if c == '\x08' then some "\\b"
  else if c == '\x0c' then some "\\f"
  else if c.toNat ≤ 0x1f then
    some (String.ofList ['\\', 'u', '0', '0', Nat.digitChar (c.toNat / 16),
      Nat.digitChar (c.toNat % 16)])
  else none

def renderString (value : String) : String :=
  value.toList.foldl (fun text c => text ++ (jsonEscape c).getD (String.singleton c)) "\"" ++ "\""

namespace Json

mutual

/-- Compact JSON text, as `serde_json` writes it. -/
def render : Json → String
  | null => "null"
  | bool value => if value then "true" else "false"
  | number value => value.text
  | string value => renderString value
  | array items => "[" ++ renderItems items ++ "]"
  | object entries => "\x7b" ++ renderEntries entries ++ "\x7d"

@[inherit_doc render]
def renderItems : List Json → String
  | [] => ""
  | [item] => item.render
  | item :: rest => item.render ++ "," ++ renderItems rest

@[inherit_doc render]
def renderEntries : List (String × Json) → String
  | [] => ""
  | [(key, value)] => renderString key ++ ":" ++ value.render
  | (key, value) :: rest => renderString key ++ ":" ++ value.render ++ "," ++ renderEntries rest

end

end Json

/-- The entries of a JSON object, in key order. -/
abbrev Object := List (String × Json)

namespace Object

def get? : Object → String → Option Json
  | [], _ => none
  | (name, value) :: rest, key => if name = key then some value else get? rest key

def insert : Object → String → Json → Object
  | [], key, value => [(key, value)]
  | (name, old) :: rest, key, value =>
    if name = key then (key, value) :: rest
    else if key < name then (key, value) :: (name, old) :: rest
    else (name, old) :: insert rest key value

def remove (entries : Object) (key : String) : Object :=
  entries.filter fun entry => entry.1 != key

/-- Insert every entry of `extra`, in order (`Map::extend`). -/
def extend (entries extra : Object) : Object :=
  extra.foldl (fun acc entry => acc.insert entry.1 entry.2) entries

@[simp] lemma get?_nil (key : String) : get? [] key = none := rfl

lemma get?_cons (name : String) (value : Json) (rest : Object) (key : String) :
    get? ((name, value) :: rest) key = if name = key then some value else get? rest key := rfl

lemma insert_cons (name : String) (old : Json) (rest : Object) (key : String) (value : Json) :
    insert ((name, old) :: rest) key value =
      if name = key then (key, value) :: rest
      else if key < name then (key, value) :: (name, old) :: rest
      else (name, old) :: insert rest key value := rfl

lemma mem_of_get? {entries : Object} {key : String} {json : Json}
    (h : entries.get? key = some json) : (key, json) ∈ entries := by
  induction entries with
  | nil => cases h
  | cons entry rest ih =>
    obtain ⟨name, value⟩ := entry
    rw [get?_cons] at h
    split_ifs at h with hkey
    · cases h
      subst hkey
      exact List.mem_cons_self
    · exact List.mem_cons_of_mem _ (ih h)

lemma get?_insert (entries : Object) (key other : String) (value : Json) :
    (entries.insert key value).get? other =
      if key = other then some value else entries.get? other := by
  induction entries with
  | nil => rfl
  | cons entry rest ih =>
    obtain ⟨name, old⟩ := entry
    rw [insert_cons]
    by_cases h : name = key
    · subst h
      simp only [if_true, get?_cons]
      split_ifs <;> rfl
    · rw [if_neg h]
      by_cases h' : key < name
      · rw [if_pos h']; rfl
      · rw [if_neg h', get?_cons, ih, get?_cons]
        exact ite_ite_comm _ _ _ _ fun h₁ h₂ => h (h₁.trans h₂.symm)

@[simp] lemma get?_insert_self (entries : Object) (key : String) (value : Json) :
    (entries.insert key value).get? key = some value := by
  rw [get?_insert, if_pos rfl]

lemma get?_insert_of_ne (entries : Object) {key other : String} (value : Json)
    (h : key ≠ other) : (entries.insert key value).get? other = entries.get? other := by
  rw [get?_insert, if_neg h]

lemma all_keys_insert {p : String → Bool} {entries : Object} {key : String} (value : Json)
    (hkey : p key = true) (h : (entries.all fun entry => p entry.1) = true) :
    ((entries.insert key value).all fun entry => p entry.1) = true := by
  induction entries with
  | nil => exact (Bool.and_true _).trans hkey
  | cons entry rest ih =>
    obtain ⟨name, old⟩ := entry
    rw [List.all_cons, Bool.and_eq_true] at h
    rw [insert_cons]
    split_ifs
    · rw [List.all_cons, Bool.and_eq_true]
      exact ⟨hkey, h.2⟩
    · rw [List.all_cons, List.all_cons, Bool.and_eq_true, Bool.and_eq_true]
      exact ⟨hkey, h⟩
    · rw [List.all_cons, Bool.and_eq_true]
      exact ⟨h.1, ih h.2⟩

lemma all_keys_extend {p : String → Bool} {entries extra : Object}
    (hextra : ∀ entry ∈ extra, p entry.1 = true)
    (h : (entries.all fun entry => p entry.1) = true) :
    ((entries.extend extra).all fun entry => p entry.1) = true := by
  induction extra generalizing entries with
  | nil => exact h
  | cons entry rest ih =>
    have hrest : ∀ entry ∈ rest, p entry.1 = true := fun e he => hextra e (List.mem_cons_of_mem _ he)
    exact ih hrest (all_keys_insert entry.2 (hextra entry List.mem_cons_self) h)

lemma get?_remove (entries : Object) (key other : String) :
    (entries.remove key).get? other = if key = other then none else entries.get? other := by
  induction entries with
  | nil => simp [remove]
  | cons entry rest ih =>
    obtain ⟨name, value⟩ := entry
    simp only [remove, List.filter_cons] at ih ⊢
    by_cases h : name = key
    · subst h
      simp only [bne_self_eq_false, Bool.false_eq_true, if_false, ih, get?_cons]
      split_ifs <;> rfl
    · simp only [bne_iff_ne, ne_eq, h, not_false_eq_true, if_true, get?_cons, ih]
      exact ite_ite_comm _ _ _ _ fun h₁ h₂ => h (h₁.trans h₂.symm)

lemma get?_extend_of_notMem (entries extra : Object) {key : String}
    (h : ∀ entry ∈ extra, entry.1 ≠ key) : (entries.extend extra).get? key = entries.get? key := by
  induction extra generalizing entries with
  | nil => rfl
  | cons entry rest ih =>
    have hrest : ∀ entry ∈ rest, entry.1 ≠ key := fun e he => h e (by simp [he])
    show ((entries.insert entry.1 entry.2).extend rest).get? key = _
    rw [ih _ hrest, get?_insert_of_ne _ _ (h entry (by simp))]

end Object

namespace Json

def asObject : Json → Option Object
  | .object entries => some entries
  | _ => none

def asArray : Json → Option (List Json)
  | .array items => some items
  | _ => none

def asStr : Json → Option String
  | .string text => some text
  | _ => none

def asBool : Json → Option Bool
  | .bool value => some value
  | _ => none

/-- `Value::get` with a string key. -/
def get? (value : Json) (key : String) : Option Json :=
  value.asObject.bind (·.get? key)

/-- `value[key]`: a missing key reads as null. -/
def index (value : Json) (key : String) : Json :=
  (value.get? key).getD .null

def isContainer : Json → Bool
  | .array _ | .object _ => true
  | _ => false

@[simp] lemma asObject_object (entries : Object) : (object entries).asObject = some entries := rfl

@[simp] lemma get?_object (entries : Object) (key : String) :
    (object entries).get? key = entries.get? key := rfl

end Json

end Antiburn
