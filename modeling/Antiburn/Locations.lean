/-
Places inside a JSON value.

A location is the list of fields and indexes from the root down.  `pointer` writes
it as an RFC 6901 pointer, `report` as the dotted path of a report, and
`pointer?_eq_at?` reads a written pointer back.
-/
import Antiburn.Checkpoint

namespace Antiburn

inductive Step where
  | key (name : String)
  | index (i : Nat)
  deriving DecidableEq

/-- The steps from the root of a value to a place in it. -/
abbrev Location := List Step

/-! ### Reading and writing at a location -/

namespace Object

def set : Object → String → Json → Object
  | [], _, _ => []
  | (name, old) :: rest, key, value =>
    if name = key then (name, value) :: rest else (name, old) :: set rest key value

lemma get?_set (entries : Object) (key other : String) (value : Json) :
    (entries.set key value).get? other =
      if key = other then (entries.get? key).map fun _ => value else entries.get? other := by
  induction entries with
  | nil => simp [set]
  | cons entry rest ih =>
    obtain ⟨name, old⟩ := entry
    simp only [set]
    by_cases h : name = key
    · subst h
      simp only [if_true, get?_cons, Option.map_some]
      split_ifs <;> rfl
    · rw [if_neg h, get?_cons, ih, get?_cons, get?_cons, if_neg h]
      exact ite_ite_comm _ _ _ _ fun h₁ h₂ => h (h₁.trans h₂.symm)

end Object

namespace Json

def child : Json → Step → Option Json
  | .object entries, .key name => Object.get? entries name
  | .array items, .index i => items[i]?
  | _, _ => none

def at? (value : Json) : Location → Option Json
  | [] => some value
  | step :: rest => (value.child step).bind fun inner => inner.at? rest

def setChild : Json → Step → Json → Json
  | .object entries, .key name, inner => .object (Object.set entries name inner)
  | .array items, .index i, inner => .array (items.set i inner)
  | value, _, _ => value

def setAt (value : Json) (location : Location) (new : Json) : Json :=
  match location with
  | [] => new
  | step :: rest =>
    match value.child step with
    | none => value
    | some inner => value.setChild step (inner.setAt rest new)

lemma at?_cons (value : Json) (step : Step) (rest : Location) :
    value.at? (step :: rest) = (value.child step).bind fun inner => inner.at? rest := rfl

lemma at?_append (value : Json) (location rest : Location) :
    value.at? (location ++ rest) = (value.at? location).bind fun inner => inner.at? rest := by
  induction location generalizing value with
  | nil => rfl
  | cons step location ih =>
    rw [List.cons_append, at?_cons, at?_cons]
    cases value.child step with
    | none => rfl
    | some inner => exact ih inner

lemma child_setChild {value inner : Json} {step : Step} (h : value.child step = some inner)
    (new : Json) (other : Step) :
    (value.setChild step new).child other = if step = other then some new else value.child other := by
  cases value with
  | object entries =>
    cases step with
    | index i => cases h
    | key name =>
      cases other with
      | index i => rfl
      | key name' =>
        show Object.get? (Object.set entries name new) name' = _
        have h : Object.get? entries name = some inner := h
        rw [Object.get?_set, h]
        simp only [Option.map_some, Step.key.injEq]
        rfl
  | array items =>
    cases step with
    | key name => cases h
    | index i =>
      cases other with
      | key name => rfl
      | index j =>
        have h : items[i]? = some inner := h
        show (items.set i new)[j]? = _
        rw [List.getElem?_set]
        obtain ⟨hlt, -⟩ := List.getElem?_eq_some_iff.mp h
        simp only [Step.index.injEq, hlt, if_true]
        rfl
  | null | bool | number | string => cases step <;> cases h

lemma at?_setAt_self {value old : Json} {location : Location} (h : value.at? location = some old)
    (new : Json) : (value.setAt location new).at? location = some new := by
  induction location generalizing value with
  | nil => rfl
  | cons step rest ih =>
    rw [at?_cons] at h
    rw [setAt]
    cases hchild : value.child step with
    | none => simp [hchild] at h
    | some inner =>
      rw [hchild] at h
      rw [at?_cons, child_setChild hchild, if_pos rfl]
      exact ih h

end Json

/-! ### Locations that have nothing in common -/

def Location.Diverges (a b : Location) : Prop := ¬ a <+: b ∧ ¬ b <+: a

namespace Location.Diverges

lemma symm {a b : Location} (h : Location.Diverges a b) : Location.Diverges b a := ⟨h.2, h.1⟩

lemma of_cons {step : Step} {a b : Location}
    (h : Location.Diverges (step :: a) (step :: b)) : Location.Diverges a b :=
  ⟨fun hp => h.1 (List.cons_prefix_cons.mpr ⟨rfl, hp⟩),
    fun hp => h.2 (List.cons_prefix_cons.mpr ⟨rfl, hp⟩)⟩

lemma of_step {base : Location} {s s' : Step} (hne : s ≠ s') (a b : Location) :
    Location.Diverges (base ++ s :: a) (base ++ s' :: b) := by
  constructor
  · intro h
    rw [List.prefix_append_right_inj, List.cons_prefix_cons] at h
    exact hne h.1
  · intro h
    rw [List.prefix_append_right_inj, List.cons_prefix_cons] at h
    exact hne h.1.symm

end Location.Diverges

/-- **Frame.**  A replacement changes nothing at a place that diverges from it. -/
lemma Json.at?_setAt_of_diverges (value new : Json) {location other : Location}
    (h : Location.Diverges other location) :
    (value.setAt location new).at? other = value.at? other := by
  induction location generalizing value other with
  | nil => exact absurd List.nil_prefix h.2
  | cons step rest ih =>
    cases other with
    | nil => exact absurd List.nil_prefix h.1
    | cons step' rest' =>
      rw [Json.setAt]
      cases hchild : value.child step with
      | none => rfl
      | some inner =>
        show (value.setChild step (inner.setAt rest new)).at? (step' :: rest') = _
        rw [Json.at?_cons, Json.child_setChild hchild, Json.at?_cons]
        split_ifs with hstep
        · subst hstep
          rw [hchild]
          exact ih inner h.of_cons
        · rfl

/-! ### Pointers -/

/-- `str::replace` of one character. -/
def replaceChar (c : Char) (replacement : List Char) (text : List Char) : List Char :=
  text.flatMap fun x => if x = c then replacement else [x]

/-- `str::replace` of two characters by one. -/
def replacePair (a b c : Char) : List Char → List Char
  | x :: y :: rest =>
    if x = a ∧ y = b then c :: replacePair a b c rest else x :: replacePair a b c (y :: rest)
  | text => text

def escapeToken (field : String) : String :=
  String.ofList (replaceChar '/' ['~', '1'] (replaceChar '~' ['~', '0'] field.toList))

def unescapeToken (token : List Char) : String :=
  String.ofList (replacePair '~' '0' '~' (replacePair '~' '1' '/' token))

/-- `parse_index` of a pointer token.  An index that does not fit `usize` is past the
end of every array. -/
def parseIndex (token : String) : Option Nat :=
  match token.toList with
  | [] => none
  | '+' :: _ => none
  | '0' :: _ :: _ => none
  | _ => (Number.mk token).asU64

def pointerTokens (pointer : String) : Option (List String) :=
  match pointer.toList with
  | [] => some []
  | '/' :: rest => some ((rest.splitOn '/').map unescapeToken)
  | _ => none

namespace Json

def tokenStep (value : Json) (token : String) : Option Step :=
  match value with
  | .object _ => some (.key token)
  | .array _ => (parseIndex token).map .index
  | _ => none

def resolve (value : Json) : List String → Option Location
  | [] => some []
  | token :: rest =>
    (value.tokenStep token).bind fun step =>
      (value.child step).bind fun inner => (inner.resolve rest).map (step :: ·)

/-- `Value::pointer_mut`: the place that a pointer names. -/
def pointerMut (value : Json) (pointer : String) : Option Location :=
  (pointerTokens pointer).bind value.resolve

end Json

def Step.token : Step → String
  | .key name => escapeToken name
  | .index i => toString i

def Location.pointer (location : Location) : String :=
  location.foldl (fun pointer step => pointer ++ "/" ++ step.token) ""

def Step.name : Step → String
  | .key name => name
  | .index i => toString i

/-! ### Reading a written pointer -/

lemma replacePair_cons_of_ne {a b c x : Char} (hx : x ≠ a) (text : List Char) :
    replacePair a b c (x :: text) = x :: replacePair a b c text := by
  cases text with
  | nil => rfl
  | cons y rest => rw [replacePair, if_neg fun h => hx h.1]

lemma unescapeToken_escape (text : List Char) :
    replacePair '~' '0' '~' (replacePair '~' '1' '/'
      (replaceChar '/' ['~', '1'] (replaceChar '~' ['~', '0'] text))) = text := by
  -- undoing the slashes leaves the escaped tildes
  have hslash (text : List Char) : replacePair '~' '1' '/'
      (replaceChar '/' ['~', '1'] (replaceChar '~' ['~', '0'] text)) =
        replaceChar '~' ['~', '0'] text := by
    induction text with
    | nil => rfl
    | cons c rest ih =>
      by_cases htilde : c = '~'
      · subst htilde
        show replacePair '~' '1' '/' ('~' :: '0' :: replaceChar '/' ['~', '1']
          (replaceChar '~' ['~', '0'] rest)) = '~' :: '0' :: replaceChar '~' ['~', '0'] rest
        rw [replacePair, if_neg (by decide), replacePair_cons_of_ne (by decide), ih]
      · have htilde' : replaceChar '~' ['~', '0'] (c :: rest) =
            c :: replaceChar '~' ['~', '0'] rest := by
          simp only [replaceChar, List.flatMap_cons, if_neg htilde, List.singleton_append]
        rw [htilde']
        by_cases hc : c = '/'
        · subst hc
          show replacePair '~' '1' '/' ('~' :: '1' :: replaceChar '/' ['~', '1']
            (replaceChar '~' ['~', '0'] rest)) = '/' :: replaceChar '~' ['~', '0'] rest
          rw [replacePair, if_pos ⟨rfl, rfl⟩, ih]
        · have hc' : replaceChar '/' ['~', '1'] (c :: replaceChar '~' ['~', '0'] rest) =
              c :: replaceChar '/' ['~', '1'] (replaceChar '~' ['~', '0'] rest) := by
            simp only [replaceChar, List.flatMap_cons, if_neg hc, List.singleton_append]
          rw [hc', replacePair_cons_of_ne htilde, ih]
  rw [hslash]
  induction text with
  | nil => rfl
  | cons c rest ih =>
    by_cases htilde : c = '~'
    · subst htilde
      show replacePair '~' '0' '~' ('~' :: '0' :: replaceChar '~' ['~', '0'] rest) = '~' :: rest
      rw [replacePair, if_pos ⟨rfl, rfl⟩, ih]
    · have htilde' : replaceChar '~' ['~', '0'] (c :: rest) =
          c :: replaceChar '~' ['~', '0'] rest := by
        simp only [replaceChar, List.flatMap_cons, if_neg htilde, List.singleton_append]
      rw [htilde', replacePair_cons_of_ne htilde, ih]

lemma toDigits_notMem {c : Char} (hc : c.isDigit = false) (n : Nat) : c ∉ (toString n).toList := by
  intro hmem
  have hdigit := JsonCodec.isDigit_of_mem_toString hmem
  rw [hc] at hdigit
  cases hdigit

lemma replaceChar_eq_self {c : Char} {replacement text : List Char} (h : c ∉ text) :
    replaceChar c replacement text = text := by
  induction text with
  | nil => rfl
  | cons x rest ih =>
    rw [List.mem_cons, not_or] at h
    have hx : x ≠ c := fun heq => h.1 heq.symm
    show (if x = c then replacement else [x]) ++ replaceChar c replacement rest = _
    rw [if_neg hx, ih h.2]
    rfl

lemma notMem_replaceChar {c : Char} {replacement : List Char} (h : c ∉ replacement)
    (text : List Char) : c ∉ replaceChar c replacement text := by
  intro hmem
  rw [replaceChar, List.mem_flatMap] at hmem
  obtain ⟨x, -, hx⟩ := hmem
  split_ifs at hx with heq
  · exact h hx
  · exact heq (List.mem_singleton.mp hx).symm

lemma Step.slash_notMem_token (step : Step) : '/' ∉ step.token.toList := by
  cases step with
  | key name =>
    show '/' ∉ (escapeToken name).toList
    rw [escapeToken, String.toList_ofList]
    exact notMem_replaceChar (by decide) _
  | index i => exact toDigits_notMem (by decide) i

lemma Step.unescapeToken_token (step : Step) : unescapeToken step.token.toList = step.name := by
  cases step with
  | key name =>
    show unescapeToken (escapeToken name).toList = name
    rw [escapeToken, unescapeToken, String.toList_ofList, unescapeToken_escape, String.ofList_toList]
  | index i =>
    show unescapeToken (toString i).toList = toString i
    have hescaped := unescapeToken_escape (toString i).toList
    have htilde : '~' ∉ (toString i).toList := toDigits_notMem (by decide) i
    have hslash : '/' ∉ (toString i).toList := toDigits_notMem (by decide) i
    rw [replaceChar_eq_self htilde, replaceChar_eq_self hslash] at hescaped
    rw [unescapeToken, hescaped, String.ofList_toList]

lemma Location.pointer_toList (location : Location) :
    location.pointer.toList = location.flatMap fun step => '/' :: step.token.toList := by
  have h (pointer : String) : (location.foldl (fun pointer step => pointer ++ "/" ++ step.token)
      pointer).toList = pointer.toList ++ location.flatMap fun step => '/' :: step.token.toList := by
    induction location generalizing pointer with
    | nil => simp
    | cons step rest ih =>
      rw [List.foldl_cons, ih, List.flatMap_cons]
      simp [String.toList_append]
  exact (h "").trans (by simp)

lemma flatMap_slash (tokens : List (List Char)) (token : List Char) :
    (token :: tokens).flatMap (fun token => '/' :: token) =
      '/' :: ['/'].intercalate (token :: tokens) := by
  induction tokens generalizing token with
  | nil => simp
  | cons next rest ih =>
    rw [List.flatMap_cons, ih, List.intercalate_cons_cons]
    simp

/-- **Round trip.**  A written pointer names the steps of its location. -/
lemma pointerTokens_pointer (location : Location) :
    pointerTokens location.pointer = some (location.map Step.name) := by
  rw [pointerTokens, Location.pointer_toList]
  cases location with
  | nil => rfl
  | cons step rest =>
    have hjoin := flatMap_slash (rest.map fun step => step.token.toList) step.token.toList
    have hflat : (step :: rest).flatMap (fun step => '/' :: step.token.toList) =
        '/' :: ['/'].intercalate ((step :: rest).map fun step => step.token.toList) := by
      rw [List.map_cons, ← hjoin, ← List.map_cons (f := fun step : Step => step.token.toList)]
      rw [List.flatMap_map]
    rw [hflat]
    show some (((['/'].intercalate _).splitOn '/').map unescapeToken) = _
    rw [List.splitOn_intercalate, List.map_map]
    · exact congrArg some (List.map_congr_left fun step _ => step.unescapeToken_token)
    · intro token htoken
      rw [List.mem_map] at htoken
      obtain ⟨step, -, rfl⟩ := htoken
      exact step.slash_notMem_token
    · exact List.cons_ne_nil _ _

lemma head?_toDigits {n : Nat} (h : (Nat.toDigits 10 n).head? = some '0') : n = 0 := by
  induction n using Nat.strongRecOn with
  | ind n ih =>
    by_cases hlt : n < 10
    · rw [Nat.toDigits_of_lt_base hlt, List.head?_cons, Option.some.injEq] at h
      exact Nat.digitChar_eq_zero.mp h
    · have hle : 10 ≤ n := Nat.not_lt.mp hlt
      rw [Nat.toDigits_of_base_le (by decide) hle,
        List.head?_append_of_ne_nil _ Nat.toDigits_ne_nil] at h
      have hzero := ih (n / 10) (by omega) h
      omega

lemma parseIndex_toString (i : Nat) : parseIndex (toString i) = some i := by
  have hvalue : (Number.mk (toString i)).asU64 = some i := JsonCodec.asU64_ofNat i
  have hchars : (toString i).toList = Nat.toDigits 10 i := Nat.toList_repr
  have hplus : '+' ∉ (toString i).toList := toDigits_notMem (by decide) i
  unfold parseIndex
  split
  · next h => exact absurd (hchars.symm.trans h) Nat.toDigits_ne_nil
  · next h => exact absurd (h ▸ List.mem_cons_self) hplus
  · next h =>
    have hzero : i = 0 := head?_toDigits (by rw [← hchars, h]; rfl)
    subst hzero
    cases h
  · exact hvalue

namespace Json

lemma pointerMut_pointer {value found : Json} {location : Location}
    (h : value.at? location = some found) : value.pointerMut location.pointer = some location := by
  rw [pointerMut, pointerTokens_pointer, Option.bind_some]
  induction location generalizing value with
  | nil => rfl
  | cons step rest ih =>
    rw [at?_cons] at h
    rw [List.map_cons, resolve]
    cases hchild : value.child step with
    | none => simp [hchild] at h
    | some inner =>
      rw [hchild] at h
      have hstep : value.tokenStep step.name = some step := by
        cases value with
        | object entries =>
          cases step with
          | key name => rfl
          | index i => cases hchild
        | array items =>
          cases step with
          | key name => cases hchild
          | index i =>
            show (parseIndex (toString i)).map Step.index = _
            rw [parseIndex_toString]
            rfl
        | null | bool | number | string => cases step <;> cases hchild
      rw [hstep, Option.bind_some, hchild, Option.bind_some, ih h]
      rfl

end Json

end Antiburn
