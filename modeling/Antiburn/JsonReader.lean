/-
Reading back the JSON text that is written.

`ReadsJson` says what the engine relies on in `serde_json`: a text it wrote is read
back, unless arrays and objects nest deeper than its recursion limit.  The
reader here has that law; it reads compact text, with the numbers that it is
given a reader for, and makes a platform on which the law is no assumption.
-/
import Antiburn.AsciiPlatform
import Antiburn.Locations
import Antiburn.Measure
import Mathlib

namespace Antiburn

/-! ### Nesting -/

variable {items : List Json} {entries : List (String × Json)}

namespace Json

mutual

/-- Arrays and objects around the deepest value. -/
def nesting : Json → Nat
  | array items => nestingItems items + 1
  | object entries => nestingEntries entries + 1
  | _ => 0

@[inherit_doc nesting]
def nestingItems : List Json → Nat
  | [] => 0
  | item :: rest => max item.nesting (nestingItems rest)

@[inherit_doc nesting]
def nestingEntries : List (String × Json) → Nat
  | [] => 0
  | (_, item) :: rest => max item.nesting (nestingEntries rest)

end

lemma nestingItems_le_iff {room : Nat} :
    nestingItems items ≤ room ↔ ∀ item ∈ items, item.nesting ≤ room := by
  induction items with
  | nil => exact ⟨fun _ item h => (by cases h), fun _ => Nat.zero_le _⟩
  | cons item rest ih =>
    rw [List.forall_mem_cons, ← ih]
    exact max_le_iff

lemma nestingEntries_le_iff {room : Nat} :
    nestingEntries entries ≤ room ↔ ∀ entry ∈ entries, entry.2.nesting ≤ room := by
  induction entries with
  | nil => exact ⟨fun _ entry h => (by cases h), fun _ => Nat.zero_le _⟩
  | cons entry rest ih =>
    rw [List.forall_mem_cons, ← ih]
    exact max_le_iff

lemma nesting_lt_of_mem {item : Json} (h : item ∈ items) :
    item.nesting < (Json.array items).nesting :=
  Nat.lt_succ_iff.mpr (nestingItems_le_iff.mp le_rfl item h)

lemma nesting_lt_of_mem_entries {entries : Object} {entry : String × Json} (h : entry ∈ entries) :
    entry.2.nesting < (Json.object entries).nesting :=
  Nat.lt_succ_iff.mpr (nestingEntries_le_iff.mp le_rfl entry h)

lemma nesting_lt_of_get? {entries : Object} (name : String) {value : Json}
    (h : entries.get? name = some value) : value.nesting < (Json.object entries).nesting :=
  nesting_lt_of_mem_entries (Object.mem_of_get? h)

mutual

/-- Every number of the value is one of `printed`. -/
def Numbers (printed : Number → Prop) : Json → Prop
  | number value => printed value
  | array items => NumbersItems printed items
  | object entries => NumbersEntries printed entries
  | _ => True

@[inherit_doc Numbers]
def NumbersItems (printed : Number → Prop) : List Json → Prop
  | [] => True
  | item :: rest => item.Numbers printed ∧ NumbersItems printed rest

@[inherit_doc Numbers]
def NumbersEntries (printed : Number → Prop) : List (String × Json) → Prop
  | [] => True
  | (_, item) :: rest => item.Numbers printed ∧ NumbersEntries printed rest

end

lemma numbersItems_iff {printed : Number → Prop} :
    NumbersItems printed items ↔ ∀ item ∈ items, item.Numbers printed := by
  induction items with
  | nil => simp [NumbersItems]
  | cons item rest ih => rw [NumbersItems, ih, List.forall_mem_cons]

lemma numbersEntries_iff {printed : Number → Prop} :
    NumbersEntries printed entries ↔ ∀ entry ∈ entries, entry.2.Numbers printed := by
  induction entries with
  | nil => simp [NumbersEntries]
  | cons entry rest ih => rw [NumbersEntries, ih, List.forall_mem_cons]

end Json

/-! ### Strings -/

def escapedChar (c : Char) : List Char := ((jsonEscape c).getD (String.singleton c)).toList

lemma toList_renderString (value : String) :
    (renderString value).toList = '"' :: (value.toList.flatMap escapedChar ++ ['"']) := by
  have hfold : ∀ (chars : List Char) (text : String),
      (chars.foldl (fun text c => text ++ (jsonEscape c).getD (String.singleton c)) text).toList =
        text.toList ++ chars.flatMap escapedChar := by
    intro chars
    induction chars with
    | nil => simp
    | cons c rest ih =>
      intro text
      rw [List.foldl_cons, ih, String.toList_append, List.flatMap_cons, List.append_assoc]
      rfl
  rw [renderString, String.toList_append, hfold]
  rfl

def hexDigit (c : Char) : Option Nat :=
  if '0' ≤ c ∧ c ≤ '9' then some (c.toNat - '0'.toNat)
  else if 'a' ≤ c ∧ c ≤ 'f' then some (c.toNat - 'a'.toNat + 10)
  else if 'A' ≤ c ∧ c ≤ 'F' then some (c.toNat - 'A'.toNat + 10)
  else none

/-- The character behind `\u`, one outside the surrogates. -/
def hexChar (a b c d : Char) : Option Char := do
  let code := (← hexDigit a) * 4096 + (← hexDigit b) * 256 + (← hexDigit c) * 16 + (← hexDigit d)
  if 0xd800 ≤ code ∧ code < 0xe000 then none else some (Char.ofNat code)

def unescapeChar : Char → Option Char
  | '"' => some '"'
  | '\\' => some '\\'
  | '/' => some '/'
  | 'b' => some '\x08'
  | 'f' => some '\x0c'
  | 'n' => some '\n'
  | 'r' => some '\r'
  | 't' => some '\t'
  | _ => none

/-- The content of a string, up to its closing quote. -/
def readContent : List Char → Option (List Char × List Char)
  | [] => none
  | '"' :: rest => some ([], rest)
  | '\\' :: 'u' :: a :: b :: c :: d :: rest => do
    let first ← hexChar a b c d
    let (content, rest) ← readContent rest
    return (first :: content, rest)
  | '\\' :: c :: rest => do
    let first ← unescapeChar c
    let (content, rest) ← readContent rest
    return (first :: content, rest)
  | c :: rest =>
    if c.toNat ≤ 0x1f then none
    else do
      let (content, rest) ← readContent rest
      return (c :: content, rest)

lemma hexChar_control (n : Fin 32) :
    hexChar '0' '0' (Nat.digitChar (n / 16)) (Nat.digitChar (n % 16)) =
      some (Char.ofNat n) := by
  revert n
  decide

lemma readContent_escapedChar (c : Char) (rest : List Char) :
    readContent (escapedChar c ++ rest) =
      (readContent rest).map fun read => (c :: read.1, read.2) := by
  by_cases hquote : c = '"'
  · subst hquote
    simp [escapedChar, jsonEscape, readContent, unescapeChar, Option.map_eq_bind]
  by_cases hslash : c = '\\'
  · subst hslash
    simp [escapedChar, jsonEscape, readContent, unescapeChar, Option.map_eq_bind]
  by_cases hplain : jsonEscape c = none
  · have hcontr : ¬c.toNat ≤ 0x1f := by
      intro hle
      unfold jsonEscape at hplain
      split_ifs at hplain
    have hchars : escapedChar c = [c] := by simp [escapedChar, hplain]
    rw [hchars, List.singleton_append, readContent, if_neg hcontr]
    · simp [Option.map_eq_bind]
    · exact hquote
    · exact fun _ _ _ _ _ h _ => hslash h
    · exact fun _ _ h _ => hslash h
  have hshort : ∀ special ∈ ['\n', '\r', '\t', '\x08', '\x0c'], c = special →
      readContent (escapedChar c ++ rest) =
        (readContent rest).map fun read => (c :: read.1, read.2) := by
    intro special hspec heq
    subst heq
    simp only [List.mem_cons, List.not_mem_nil, or_false] at hspec
    rcases hspec with rfl | rfl | rfl | rfl | rfl <;>
      simp [escapedChar, jsonEscape, readContent, unescapeChar, Option.map_eq_bind]
  by_cases hspec : c ∈ ['\n', '\r', '\t', '\x08', '\x0c']
  · exact hshort c hspec rfl
  -- what is left is written by its number
  simp only [List.mem_cons, List.not_mem_nil, or_false, not_or] at hspec
  obtain ⟨hn, hr, ht, hb, hf⟩ := hspec
  have hcontr : c.toNat ≤ 0x1f := by
    by_contra hlarge
    refine hplain ?_
    simp [jsonEscape, hquote, hslash, hn, hr, ht, hb, hf, hlarge]
  have hchars : escapedChar c = ['\\', 'u', '0', '0', Nat.digitChar (c.toNat / 16),
      Nat.digitChar (c.toNat % 16)] := by
    simp [escapedChar, jsonEscape, hquote, hslash, hn, hr, ht, hb, hf, hcontr]
  have hhex : hexChar '0' '0' (Nat.digitChar (c.toNat / 16)) (Nat.digitChar (c.toNat % 16)) =
      some c := by
    have hread := hexChar_control ⟨c.toNat, Nat.lt_succ_of_le hcontr⟩
    rwa [Char.ofNat_toNat] at hread
  rw [hchars]
  simp only [List.cons_append, List.nil_append]
  rw [readContent, hhex]
  simp [Option.map_eq_bind]

lemma readContent_escaped (content rest : List Char) :
    readContent (content.flatMap escapedChar ++ '"' :: rest) = some (content, rest) := by
  induction content with
  | nil => rfl
  | cons c content ih =>
    rw [List.flatMap_cons, List.append_assoc, readContent_escapedChar, ih]
    rfl

/-! ### Values -/

def isNumberChar (c : Char) : Bool :=
  c.isDigit || c == '-' || c == '+' || c == '.' || c == 'e' || c == 'E'

/-- The rest of `null`, `true` or `false`. -/
def readLiteral (word : String) (value : Json) (chars : List Char) : Option (Json × List Char) :=
  if chars.take word.toList.length = word.toList then
    some (value, chars.drop word.toList.length)
  else none

section Reader

variable (parse : String → Option Number)

def readNumber (chars : List Char) : Option (Json × List Char) :=
  (parse (String.ofList (chars.takeWhile isNumberChar))).map fun number =>
    (.number number, chars.dropWhile isNumberChar)

mutual

/-- A value, in at most `room` arrays and objects. -/
def readValue : Nat → Nat → List Char → Option (Json × List Char)
  | 0, _, _ => none
  | _, _, [] => none
  | fuel + 1, room, c :: rest =>
    if c = '"' then
      (readContent rest).map fun read => (.string (String.ofList read.1), read.2)
    else if c = '[' then
      if room = 0 then none
      else if rest.head? = some ']' then some (.array [], rest.drop 1)
      else (readItems fuel (room - 1) rest).map fun read => (.array read.1, read.2)
    else if c = '\x7b' then
      if room = 0 then none
      else if rest.head? = some '\x7d' then some (.object [], rest.drop 1)
      else (readEntries fuel (room - 1) rest).map fun read => (.object read.1, read.2)
    else if c = 'n' then readLiteral "ull" .null rest
    else if c = 't' then readLiteral "rue" (.bool true) rest
    else if c = 'f' then readLiteral "alse" (.bool false) rest
    else readNumber parse (c :: rest)

def readItems : Nat → Nat → List Char → Option (List Json × List Char)
  | 0, _, _ => none
  | fuel + 1, room, chars => do
    let (item, rest) ← readValue fuel room chars
    match rest with
    | ',' :: rest => (readItems fuel room rest).map fun read => (item :: read.1, read.2)
    | ']' :: rest => some ([item], rest)
    | _ => none

def readEntries : Nat → Nat → List Char → Option (List (String × Json) × List Char)
  | fuel + 1, room, '"' :: chars => do
    let (key, rest) ← readContent chars
    match rest with
    | ':' :: rest => do
      let (item, rest) ← readValue fuel room rest
      match rest with
      | ',' :: rest =>
        (readEntries fuel room rest).map fun read =>
          ((String.ofList key, item) :: read.1, read.2)
      | '\x7d' :: rest => some ([(String.ofList key, item)], rest)
      | _ => none
    | _ => none
  | _, _, _ => none

end

end Reader

/-! ### Written text is read back -/

structure ReadsNumbersBack (parse : String → Option Number) (printed : Number → Prop) : Prop where
  chars : ∀ number, printed number → ∀ c ∈ number.text.toList, isNumberChar c = true
  nonempty : ∀ number, printed number → number.text.toList ≠ []
  back : ∀ number, printed number → parse number.text = some number

/-- No number goes on here. -/
def Ends (rest : List Char) : Prop := ∀ c ∈ rest.head?, isNumberChar c = false

section Back

variable {parse : String → Option Number} {printed : Number → Prop}

lemma readNumber_text (h : ReadsNumbersBack parse printed) {number : Number}
    (hprin : printed number) {rest : List Char} (hrest : Ends rest) :
    readNumber parse (number.text.toList ++ rest) = some (.number number, rest) := by
  have hchars := h.chars number hprin
  have htake : (number.text.toList ++ rest).takeWhile isNumberChar = number.text.toList := by
    rw [List.takeWhile_append_of_pos hchars]
    cases rest with
    | nil => simp
    | cons c rest => simp [hrest c rfl]
  have hdrop : (number.text.toList ++ rest).dropWhile isNumberChar = rest := by
    rw [List.dropWhile_append_of_pos hchars]
    cases rest with
    | nil => simp
    | cons c rest => simp [hrest c rfl]
  rw [readNumber, htake, hdrop, String.ofList_toList, h.back number hprin]
  rfl

lemma ends_of {c : Char} (rest : List Char) (h : isNumberChar c = false) : Ends (c :: rest) := by
  intro d hd
  cases hd
  exact h

lemma toList_render_array (items : List Json) :
    (Json.array items).render.toList = '[' :: ((Json.renderItems items).toList ++ [']']) := by
  show ("[" ++ Json.renderItems items ++ "]").toList = _
  rw [String.toList_append, String.toList_append]
  rfl

lemma toList_render_object (entries : List (String × Json)) :
    (Json.object entries).render.toList =
      '\x7b' :: ((Json.renderEntries entries).toList ++ ['\x7d']) := by
  show ("\x7b" ++ Json.renderEntries entries ++ "\x7d").toList = _
  rw [String.toList_append, String.toList_append]
  rfl

lemma render_head (h : ReadsNumbersBack parse printed) (value : Json)
    (hnums : value.Numbers printed) :
    ∃ c rest, value.render.toList = c :: rest ∧ c ≠ ']' := by
  cases value with
  | null => exact ⟨'n', _, rfl, by decide⟩
  | bool value =>
    cases value with
    | true => exact ⟨'t', _, rfl, by decide⟩
    | false => exact ⟨'f', _, rfl, by decide⟩
  | number number =>
    cases hchars : number.text.toList with
    | nil => exact absurd hchars (h.nonempty number hnums)
    | cons c rest =>
      refine ⟨c, rest, hchars, ?_⟩
      rintro rfl
      have hchar := h.chars number hnums ']' (by rw [hchars]; exact List.mem_cons_self)
      exact absurd hchar (by decide)
  | string text => exact ⟨'"', _, toList_renderString text, by decide⟩
  | array items => exact ⟨'[', _, toList_render_array items, by decide⟩
  | object entries => exact ⟨'\x7b', _, toList_render_object entries, by decide⟩

lemma readLiteral_append (word : String) (value : Json) (rest : List Char) :
    readLiteral word value (word.toList ++ rest) = some (value, rest) := by
  rw [readLiteral, List.take_left, List.drop_left, if_pos rfl]

lemma toList_renderItems_cons (item : Json) (next : Json) (rest : List Json) :
    (Json.renderItems (item :: next :: rest)).toList =
      item.render.toList ++ ',' :: (Json.renderItems (next :: rest)).toList := by
  show (item.render ++ "," ++ Json.renderItems (next :: rest)).toList = _
  rw [String.toList_append, String.toList_append, List.append_assoc]
  rfl

lemma toList_renderEntries_singleton (key : String) (item : Json) :
    (Json.renderEntries [(key, item)]).toList =
      '"' :: (key.toList.flatMap escapedChar ++ '"' :: ':' :: item.render.toList) := by
  show (renderString key ++ ":" ++ item.render).toList = _
  rw [String.toList_append, String.toList_append, toList_renderString]
  simp

lemma toList_renderEntries_cons (key : String) (item : Json) (next : String × Json)
    (rest : List (String × Json)) :
    (Json.renderEntries ((key, item) :: next :: rest)).toList =
      '"' :: (key.toList.flatMap escapedChar ++ '"' :: ':' :: (item.render.toList ++
        ',' :: (Json.renderEntries (next :: rest)).toList)) := by
  show (renderString key ++ ":" ++ item.render ++ "," ++
    Json.renderEntries (next :: rest)).toList = _
  rw [String.toList_append, String.toList_append, String.toList_append, String.toList_append,
    toList_renderString]
  simp

lemma ne_of_isNumberChar {c : Char} (h : isNumberChar c = true) :
    c ≠ '"' ∧ c ≠ '[' ∧ c ≠ '\x7b' ∧ c ≠ 'n' ∧ c ≠ 't' ∧ c ≠ 'f' := by
  have hne : ∀ d : Char, isNumberChar d = false → c ≠ d := by
    rintro d hd rfl
    rw [h] at hd
    cases hd
  exact ⟨hne _ (by decide), hne _ (by decide), hne _ (by decide), hne _ (by decide),
    hne _ (by decide), hne _ (by decide)⟩

lemma readValue_number (h : ReadsNumbersBack parse printed) {number : Number}
    (hprin : printed number) (fuel room : Nat) {rest : List Char} (hrest : Ends rest) :
    readValue parse (fuel + 1) room (number.text.toList ++ rest) = some (.number number, rest) := by
  have hread := readNumber_text h hprin hrest
  cases hchars : number.text.toList with
  | nil => exact absurd hchars (h.nonempty number hprin)
  | cons c tail =>
    obtain ⟨h₁, h₂, h₃, h₄, h₅, h₆⟩ :=
      ne_of_isNumberChar (h.chars number hprin c (by rw [hchars]; exact List.mem_cons_self))
    rw [hchars, List.cons_append] at hread
    rw [List.cons_append, readValue, if_neg h₁, if_neg h₂, if_neg h₃, if_neg h₄, if_neg h₅,
      if_neg h₆, hread]

lemma one_le_length_render (h : ReadsNumbersBack parse printed) {value : Json}
    (hnums : value.Numbers printed) : 1 ≤ value.render.toList.length := by
  obtain ⟨c, rest, hchars, -⟩ := render_head h value hnums
  rw [hchars, List.length_cons]
  exact Nat.le_add_left 1 _

lemma head_renderItems (h : ReadsNumbersBack parse printed)
    (hne : items ≠ []) (hnums : Json.NumbersItems printed items) (rest : List Char) :
    ((Json.renderItems items).toList ++ rest).head? ≠ some ']' := by
  cases items with
  | nil => exact absurd rfl hne
  | cons item items =>
    obtain ⟨c, tail, hchars, hc⟩ := render_head h item hnums.1
    cases items with
    | nil =>
      rw [Json.renderItems, hchars]
      simpa using hc
    | cons next items =>
      rw [toList_renderItems_cons, hchars]
      simpa using hc

lemma head_renderEntries (hne : entries ≠ [])
    (rest : List Char) :
    ((Json.renderEntries entries).toList ++ rest).head? ≠ some '\x7d' := by
  cases entries with
  | nil => exact absurd rfl hne
  | cons entry entries =>
    cases entries with
    | nil =>
      rw [toList_renderEntries_singleton]
      simp
    | cons next entries =>
      rw [toList_renderEntries_cons]
      simp

mutual

lemma readValue_render_of (h : ReadsNumbersBack parse printed) :
    ∀ (value : Json), value.Numbers printed → ∀ (fuel room : Nat) (rest : List Char),
      value.render.toList.length ≤ fuel + 1 →
      (∀ number, value = .number number → Ends rest) →
      readValue parse (fuel + 1) room (value.render.toList ++ rest) =
        if value.nesting ≤ room then some (value, rest) else none
  | .null, _, fuel, room, rest, _, _ => by
    show readValue parse (fuel + 1) room ('n' :: ("ull".toList ++ rest)) = _
    rw [readValue]
    simp [Json.nesting]
    exact readLiteral_append "ull" .null rest
  | .bool true, _, fuel, room, rest, _, _ => by
    show readValue parse (fuel + 1) room ('t' :: ("rue".toList ++ rest)) = _
    rw [readValue]
    simp [Json.nesting]
    exact readLiteral_append "rue" (.bool true) rest
  | .bool false, _, fuel, room, rest, _, _ => by
    show readValue parse (fuel + 1) room ('f' :: ("alse".toList ++ rest)) = _
    rw [readValue]
    simp [Json.nesting]
    exact readLiteral_append "alse" (.bool false) rest
  | .number number, hnums, fuel, room, rest, _, hrest => by
    have hnest : (Json.number number).nesting = 0 := rfl
    rw [hnest, if_pos (Nat.zero_le room)]
    exact readValue_number h hnums fuel room (hrest number rfl)
  | .string text, _, fuel, room, rest, _, _ => by
    have hnest : (Json.string text).nesting = 0 := rfl
    have hchars : (Json.string text).render.toList ++ rest =
        '"' :: (text.toList.flatMap escapedChar ++ '"' :: rest) := by
      rw [Json.render, toList_renderString]
      simp
    rw [hnest, if_pos (Nat.zero_le room), hchars, readValue, if_pos rfl, readContent_escaped,
      Option.map_some, String.ofList_toList]
  | .array items, hnums, fuel, room, rest, hfuel, hrest => by
    rw [toList_render_array, List.length_cons, List.length_append, List.length_singleton] at hfuel
    rw [toList_render_array, List.cons_append, List.append_assoc, List.singleton_append, readValue,
      if_neg (by decide), if_pos rfl, Json.nesting]
    by_cases hroom : room = 0
    · rw [if_pos hroom, if_neg (by omega)]
    rw [if_neg hroom]
    cases items with
    | nil =>
      have hnest : Json.nestingItems [] + 1 ≤ room := Nat.one_le_iff_ne_zero.mpr hroom
      rw [if_pos hnest]
      rfl
    | cons item items =>
      obtain ⟨fuel, rfl⟩ : ∃ f, fuel = f + 1 := ⟨fuel - 1, by omega⟩
      have hread := readItems_render h (item :: items) (by simp) hnums fuel (room - 1) rest
        (by omega)
      rw [if_neg (head_renderItems h (by simp) hnums _), hread]
      by_cases hnest : Json.nestingItems (item :: items) ≤ room - 1
      · rw [if_pos hnest, if_pos (by omega)]
        rfl
      · rw [if_neg hnest, if_neg (by omega)]
        rfl
  | .object entries, hnums, fuel, room, rest, hfuel, hrest => by
    rw [toList_render_object, List.length_cons, List.length_append, List.length_singleton] at hfuel
    rw [toList_render_object, List.cons_append, List.append_assoc, List.singleton_append, readValue,
      if_neg (by decide), if_neg (by decide), if_pos rfl, Json.nesting]
    by_cases hroom : room = 0
    · rw [if_pos hroom, if_neg (by omega)]
    rw [if_neg hroom]
    cases entries with
    | nil =>
      have hnest : Json.nestingEntries [] + 1 ≤ room := Nat.one_le_iff_ne_zero.mpr hroom
      rw [if_pos hnest]
      rfl
    | cons entry entries =>
      obtain ⟨fuel, rfl⟩ : ∃ f, fuel = f + 1 := ⟨fuel - 1, by omega⟩
      have hread := readEntries_render h (entry :: entries) (by simp) hnums fuel (room - 1) rest
        (by omega)
      rw [if_neg (head_renderEntries (by simp) _), hread]
      by_cases hnest : Json.nestingEntries (entry :: entries) ≤ room - 1
      · rw [if_pos hnest, if_pos (by omega)]
        rfl
      · rw [if_neg hnest, if_neg (by omega)]
        rfl

lemma readItems_render (h : ReadsNumbersBack parse printed) :
    ∀ (items : List Json), items ≠ [] → Json.NumbersItems printed items →
      ∀ (fuel room : Nat) (rest : List Char), (Json.renderItems items).toList.length ≤ fuel →
      readItems parse (fuel + 1) room ((Json.renderItems items).toList ++ ']' :: rest) =
        if Json.nestingItems items ≤ room then some (items, rest) else none
  | [], hne, _, _, _, _, _ => absurd rfl hne
  | [item], _, hnums, fuel, room, rest, hfuel => by
    rw [Json.renderItems] at hfuel ⊢
    have hlen := one_le_length_render h hnums.1
    obtain ⟨fuel, rfl⟩ : ∃ f, fuel = f + 1 := ⟨fuel - 1, by omega⟩
    have hread := readValue_render_of h item hnums.1 fuel room (']' :: rest) hfuel
      fun _ _ => ends_of rest (by decide)
    have hnest : Json.nestingItems [item] = item.nesting := Nat.max_zero _
    rw [readItems, hread, hnest]
    by_cases hroom : item.nesting ≤ room
    · rw [if_pos hroom, if_pos hroom]
      rfl
    · rw [if_neg hroom, if_neg hroom]
      rfl
  | item :: next :: items, _, hnums, fuel, room, rest, hfuel => by
    rw [toList_renderItems_cons, List.length_append, List.length_cons] at hfuel
    rw [toList_renderItems_cons, List.append_assoc, List.cons_append]
    have hlen := one_le_length_render h hnums.1
    obtain ⟨fuel, rfl⟩ : ∃ f, fuel = f + 1 := ⟨fuel - 1, by omega⟩
    have hread := readValue_render_of h item hnums.1 fuel room
      (',' :: ((Json.renderItems (next :: items)).toList ++ ']' :: rest)) (by omega)
      fun _ _ => ends_of _ (by decide)
    have hmore := readItems_render h (next :: items) (by simp) hnums.2 fuel room rest (by omega)
    rw [readItems, hread, Json.nestingItems]
    by_cases hroom : item.nesting ≤ room
    · rw [if_pos hroom]
      show (readItems parse (fuel + 1) room
        ((Json.renderItems (next :: items)).toList ++ ']' :: rest)).map _ = _
      rw [hmore]
      by_cases hrest : Json.nestingItems (next :: items) ≤ room
      · rw [if_pos hrest, if_pos (max_le hroom hrest)]
        rfl
      · rw [if_neg hrest, if_neg (fun hmax => hrest (le_of_max_le_right hmax))]
        rfl
    · rw [if_neg hroom, if_neg (fun hmax => hroom (le_of_max_le_left hmax))]
      rfl

lemma readEntries_render (h : ReadsNumbersBack parse printed) :
    ∀ (entries : List (String × Json)), entries ≠ [] → Json.NumbersEntries printed entries →
      ∀ (fuel room : Nat) (rest : List Char), (Json.renderEntries entries).toList.length ≤ fuel →
      readEntries parse (fuel + 1) room ((Json.renderEntries entries).toList ++ '\x7d' :: rest) =
        if Json.nestingEntries entries ≤ room then some (entries, rest) else none
  | [], hne, _, _, _, _, _ => absurd rfl hne
  | [(key, item)], _, hnums, fuel, room, rest, hfuel => by
    rw [toList_renderEntries_singleton] at hfuel ⊢
    simp only [List.length_cons, List.length_append] at hfuel
    obtain ⟨fuel, rfl⟩ : ∃ f, fuel = f + 1 := ⟨fuel - 1, by omega⟩
    have hread := readValue_render_of h item hnums.1 fuel room ('\x7d' :: rest) (by omega)
      fun _ _ => ends_of rest (by decide)
    have hnest : Json.nestingEntries [(key, item)] = item.nesting := Nat.max_zero _
    rw [List.cons_append, List.append_assoc, List.cons_append, List.cons_append, readEntries,
      readContent_escaped, hnest]
    show ((readValue parse (fuel + 1) room (item.render.toList ++ '\x7d' :: rest)).bind _) = _
    rw [hread]
    by_cases hroom : item.nesting ≤ room
    · rw [if_pos hroom, if_pos hroom, ← String.ofList_toList (s := key)]
      simp
    · rw [if_neg hroom, if_neg hroom]
      rfl
  | (key, item) :: next :: entries, _, hnums, fuel, room, rest, hfuel => by
    rw [toList_renderEntries_cons] at hfuel ⊢
    simp only [List.length_cons, List.length_append] at hfuel
    obtain ⟨fuel, rfl⟩ : ∃ f, fuel = f + 1 := ⟨fuel - 1, by omega⟩
    have hread := readValue_render_of h item hnums.1 fuel room
      (',' :: ((Json.renderEntries (next :: entries)).toList ++ '\x7d' :: rest)) (by omega)
      fun _ _ => ends_of _ (by decide)
    have hmore := readEntries_render h (next :: entries) (by simp) hnums.2 fuel room rest
      (by omega)
    rw [List.cons_append, List.append_assoc, List.cons_append, List.cons_append, List.append_assoc,
      List.cons_append, readEntries, readContent_escaped, Json.nestingEntries]
    show ((readValue parse (fuel + 1) room (item.render.toList ++
      ',' :: ((Json.renderEntries (next :: entries)).toList ++ '\x7d' :: rest))).bind _) = _
    rw [hread]
    by_cases hroom : item.nesting ≤ room
    · rw [if_pos hroom]
      show (readEntries parse (fuel + 1) room
        ((Json.renderEntries (next :: entries)).toList ++ '\x7d' :: rest)).map _ = _
      rw [hmore]
      by_cases hrest : Json.nestingEntries (next :: entries) ≤ room
      · rw [if_pos hrest, if_pos (max_le hroom hrest), Option.map_some, String.ofList_toList]
      · rw [if_neg hrest, if_neg (fun hmax => hrest (le_of_max_le_right hmax))]
        rfl
    · rw [if_neg hroom, if_neg (fun hmax => hroom (le_of_max_le_left hmax))]
      rfl

end

/-- **A written value is read back**, unless it nests deeper than the room. -/
lemma readValue_render (h : ReadsNumbersBack parse printed) (value : Json)
    (hnums : value.Numbers printed) (fuel room : Nat) (rest : List Char)
    (hfuel : value.render.toList.length ≤ fuel + 1) (hrest : Ends rest) :
    readValue parse (fuel + 1) room (value.render.toList ++ rest) =
      if value.nesting ≤ room then some (value, rest) else none :=
  readValue_render_of h value hnums fuel room rest hfuel fun _ _ => hrest

end Back

/-! ### Documents -/

namespace Json

mutual

/-- The value as a sorted map holds it: keys in order, the last entry of a key. -/
def normalize : Json → Json
  | array items => .array (normalizeItems items)
  | object entries => .object (Object.extend [] (normalizeEntries entries))
  | value => value

@[inherit_doc normalize]
def normalizeItems : List Json → List Json
  | [] => []
  | item :: rest => item.normalize :: normalizeItems rest

@[inherit_doc normalize]
def normalizeEntries : List (String × Json) → List (String × Json)
  | [] => []
  | (key, item) :: rest => (key, item.normalize) :: normalizeEntries rest

end

mutual

/-- The keys of every object are in order. -/
def Sorted : Json → Prop
  | array items => SortedItems items
  | object entries => (entries.map Prod.fst).Pairwise (· < ·) ∧ SortedEntries entries
  | _ => True

@[inherit_doc Sorted]
def SortedItems : List Json → Prop
  | [] => True
  | item :: rest => item.Sorted ∧ SortedItems rest

@[inherit_doc Sorted]
def SortedEntries : List (String × Json) → Prop
  | [] => True
  | (_, item) :: rest => item.Sorted ∧ SortedEntries rest

end

lemma sortedItems_iff :
    SortedItems items ↔ ∀ item ∈ items, item.Sorted := by
  induction items with
  | nil => simp [SortedItems]
  | cons item rest ih => rw [SortedItems, ih, List.forall_mem_cons]

lemma sortedEntries_iff :
    SortedEntries entries ↔ ∀ entry ∈ entries, entry.2.Sorted := by
  induction entries with
  | nil => simp [SortedEntries]
  | cons entry rest ih => rw [SortedEntries, ih, List.forall_mem_cons]

end Json

lemma Object.insert_of_lt {entries : Object} {key : String} (value : Json)
    (h : ∀ entry ∈ entries, entry.1 < key) : entries.insert key value = entries ++ [(key, value)] := by
  induction entries with
  | nil => rfl
  | cons entry rest ih =>
    obtain ⟨name, old⟩ := entry
    have hlt : name < key := h (name, old) List.mem_cons_self
    rw [Object.insert, if_neg hlt.ne, if_neg hlt.asymm,
      ih fun other hother => h other (List.mem_cons_of_mem _ hother)]
    rfl

lemma Object.extend_of_sorted {entries extra : Object}
    (h : ((entries ++ extra).map Prod.fst).Pairwise (· < ·)) :
    entries.extend extra = entries ++ extra := by
  induction extra generalizing entries with
  | nil => rw [List.append_nil]; rfl
  | cons entry rest ih =>
    have hlt : ∀ other ∈ entries, other.1 < entry.1 := by
      intro other hother
      rw [List.map_append, List.pairwise_append] at h
      exact h.2.2 _ (List.mem_map_of_mem hother) _ (by simp)
    show (entries.insert entry.1 entry.2).extend rest = _
    rw [Object.insert_of_lt _ hlt, ih (by simpa using h)]
    simp

namespace Json

mutual

/-- What is sorted is held as it is. -/
lemma normalize_of_sorted : ∀ value : Json, value.Sorted → value.normalize = value
  | .null, _ => rfl
  | .bool _, _ => rfl
  | .number _, _ => rfl
  | .string _, _ => rfl
  | .array items, h => by rw [normalize, normalizeItems_of_sorted items h]
  | .object entries, h => by
    rw [normalize, normalizeEntries_of_sorted entries h.2, Object.extend_of_sorted (by simpa using h.1)]
    rfl

@[inherit_doc normalize_of_sorted]
lemma normalizeItems_of_sorted : ∀ items : List Json, SortedItems items →
    normalizeItems items = items
  | [], _ => rfl
  | item :: rest, h => by
    rw [normalizeItems, normalize_of_sorted item h.1, normalizeItems_of_sorted rest h.2]

@[inherit_doc normalize_of_sorted]
lemma normalizeEntries_of_sorted : ∀ entries : List (String × Json), SortedEntries entries →
    normalizeEntries entries = entries
  | [], _ => rfl
  | (key, item) :: rest, h => by
    rw [normalizeEntries, normalize_of_sorted item h.1, normalizeEntries_of_sorted rest h.2]

end

end Json

/-- Arrays and objects that `serde_json` reads within each other. -/
def RECURSION_LIMIT : Nat := 127

/-- What the engine relies on in `serde_json`: it reads the text of every value it wrote,
unless the value nests beyond the recursion limit; `printed` are the numbers it writes,
with all machine integers among them. -/
structure ReadsJson [Platform] (printed : Number → Prop) : Prop where
  counts : ∀ n < 2 ^ 64, printed (.ofNat n)
  reads : ∀ value : Json, value.Numbers printed →
    (Platform.readJson value.render).value =
      if value.nesting ≤ RECURSION_LIMIT then some value.normalize else none

/-! ### A platform that reads -/

namespace Json

mutual

/-- The values of a document in the order in which they are read. -/
def readVisits (depth : Nat) (item : Bool) : Json → List JsonVisit
  | array items => ⟨depth, item⟩ :: readVisitsItems (depth + 1) items
  | object entries => ⟨depth, item⟩ :: readVisitsEntries (depth + 1) entries
  | _ => [⟨depth, item⟩]

@[inherit_doc readVisits]
def readVisitsItems (depth : Nat) : List Json → List JsonVisit
  | [] => []
  | item :: rest => item.readVisits depth true ++ readVisitsItems depth rest

@[inherit_doc readVisits]
def readVisitsEntries (depth : Nat) : List (String × Json) → List JsonVisit
  | [] => []
  | (_, item) :: rest => item.readVisits depth true ++ readVisitsEntries depth rest

end

end Json

def compactJson (text : String) : JsonReading :=
  let chars := text.toList
  match readValue asciiNumber (chars.length + 1) RECURSION_LIMIT chars with
  | some (value, []) => ⟨value.readVisits 0 false, some value.normalize⟩
  | _ => ⟨[⟨0, false⟩], none⟩

@[reducible] def compactPlatform : Platform := { asciiPlatform with readJson := compactJson }

/-- A number that prints as an unsigned machine integer. -/
def PlainNumber (number : Number) : Prop := asciiNumber number.text = some number

lemma asciiNumber_reads : ReadsNumbersBack asciiNumber PlainNumber := by
  have hdigits : ∀ number, PlainNumber number →
      number.text.toList.all Char.isDigit = true ∧ number.text.toList ≠ [] := by
    intro number hplain
    unfold PlainNumber asciiNumber at hplain
    dsimp only at hplain
    split_ifs at hplain with hchars
    simp only [Bool.and_eq_true, Bool.not_eq_true', List.isEmpty_eq_false_iff] at hchars
    exact ⟨hchars.1.1.1, hchars.1.1.2⟩
  refine ⟨fun number hplain c hc => ?_, fun number hplain => (hdigits number hplain).2,
    fun number hplain => hplain⟩
  have hdigit := List.all_eq_true.mp (hdigits number hplain).1 c hc
  rw [isNumberChar, hdigit]
  rfl

lemma plainNumber_ofNat {n : Nat} (h : n < 2 ^ 64) : PlainNumber (.ofNat n) := by
  have hchars : (toString n).toList = Nat.toDigits 10 n := Nat.toList_repr
  have hread : (Number.ofNat n).asU64 = some n := JsonCodec.asU64_ofNat n
  rw [Number.asU64, Number.ofNat] at hread
  dsimp only at hread
  split_ifs at hread with hdigits
  have hvalue : Number.digitsValue (toString n).toList = n := Option.some.inj hread
  have hnonempty : (toString n).toList.isEmpty = false := by
    rw [List.isEmpty_eq_false_iff, hchars]
    exact Nat.toDigits_ne_nil
  -- a leading zero is the number zero
  have hhead : ((toString n).toList.head? != some '0' || (toString n).toList.length == 1) = true := by
    by_cases hzero : (toString n).toList.head? = some '0'
    · rw [hchars] at hzero
      rw [head?_toDigits hzero]
      rfl
    · rw [hchars] at hzero ⊢
      simp [hzero]
  show asciiNumber (toString n) = some ⟨toString n⟩
  unfold asciiNumber
  dsimp only
  rw [hdigits, hnonempty, hhead, hvalue, if_pos (by simpa using h)]

lemma compactPlatform_readsJson : @ReadsJson compactPlatform PlainNumber := by
  refine @ReadsJson.mk compactPlatform _ (fun n hn => plainNumber_ofNat hn) fun value hnums => ?_
  have hread := readValue_render asciiNumber_reads value hnums value.render.toList.length
    RECURSION_LIMIT [] (Nat.le_succ _) (fun c hc => by cases hc)
  rw [List.append_nil] at hread
  show (compactJson value.render).value = _
  unfold compactJson
  dsimp only
  rw [hread]
  by_cases hnest : value.nesting ≤ RECURSION_LIMIT
  · rw [if_pos hnest, if_pos hnest]
  · rw [if_neg hnest, if_neg hnest]

end Antiburn
