/-
Fitting ends because its turns shrink the input.

A turn that changes the input makes its serialized text shorter and lowers the
retained count of its target.
-/
import Antiburn.FitFaithful
import Antiburn.Capacity
import Antiburn.StrictJson

namespace Antiburn

/-! ### Text between quotes -/

def contentBytes (text : String) : Nat := (text.toList.map Json.charBytes).sum

lemma contentBytes_append (a b : String) :
    contentBytes (a ++ b) = contentBytes a + contentBytes b := by
  rw [contentBytes, String.toList_append, List.map_append, List.sum_append]
  rfl

lemma utf8ByteSize_renderString (text : String) :
    (renderString text).utf8ByteSize = contentBytes text + 2 := by
  have hquote : "\"".utf8ByteSize = 1 ∧ "".utf8ByteSize = 0 := ⟨rfl, rfl⟩
  rw [← Json.writtenBytes_stringWrites, Json.stringWrites, Json.writtenBytes_cons,
    Json.writtenBytes_append, Json.writtenBytes_contentWrites_eq, Json.writtenBytes_cons,
    Json.writtenBytes_nil, hquote.1, hquote.2, contentBytes]
  omega

lemma Json.byteSize_string (text : String) : (string text).byteSize = contentBytes text + 2 := by
  rw [byteSize_eq_render, ← utf8ByteSize_renderString]
  rfl

lemma Json.charBytes_pos (c : Char) : 0 < charBytes c := by
  rw [charBytes]
  cases hescape : jsonEscape c with
  | none =>
    rw [Option.getD_none, String.utf8ByteSize_singleton]
    exact c.utf8Size_pos
  | some escape =>
    rw [Option.getD_some]
    unfold jsonEscape at hescape
    split_ifs at hescape <;> injection hescape with hescape <;> rw [← hescape]
    all_goals first | decide | (rw [utf8ByteSize_ofList_cons]; exact Nat.add_pos_left (by decide) _)

variable {text : String}

lemma contentBytes_pos (h : 0 < text.utf8ByteSize) : 0 < contentBytes text := by
  rw [contentBytes]
  cases htext : text.toList with
  | nil =>
    rw [← String.ofList_toList (s := text), htext] at h
    exact absurd h (Nat.lt_irrefl 0)
  | cons c rest =>
    rw [List.map_cons, List.sum_cons]
    exact Nat.add_pos_left (Json.charBytes_pos c) _

/-! ### A smaller part makes a smaller value -/

namespace Json

lemma sum_entryBytes_set {entries : Object} {name : String} {inner new : Json}
    (h : entries.get? name = some inner) (hlt : new.byteSize < inner.byteSize) :
    ((entries.set name new).map fun entry => entryBytes entry + 1).sum <
      (entries.map fun entry => entryBytes entry + 1).sum := by
  induction entries with
  | nil => cases h
  | cons entry rest ih =>
    obtain ⟨key, value⟩ := entry
    rw [Object.get?_cons] at h
    rw [Object.set]
    split_ifs at h ⊢ with hkey
    · injection h with h
      subst h
      rw [List.map_cons, List.sum_cons, List.map_cons, List.sum_cons]
      dsimp only [entryBytes]
      omega
    · have hrest := ih h
      rw [List.map_cons, List.sum_cons, List.map_cons, List.sum_cons]
      omega

lemma sum_itemBytes_set {items : List Json} {i : Nat} {inner new : Json}
    (h : items[i]? = some inner) (hlt : new.byteSize < inner.byteSize) :
    ((items.set i new).map fun item => item.byteSize + 1).sum <
      (items.map fun item => item.byteSize + 1).sum := by
  induction items generalizing i with
  | nil => cases h
  | cons item rest ih =>
    cases i with
    | zero =>
      injection h with h
      subst h
      rw [List.set_cons_zero, List.map_cons, List.sum_cons, List.map_cons, List.sum_cons]
      omega
    | succ i =>
      have hrest := ih h
      rw [List.set_cons_succ, List.map_cons, List.sum_cons, List.map_cons, List.sum_cons]
      omega

lemma byteSize_setChild {value inner new : Json} {step : Step}
    (h : value.child step = some inner) (hlt : new.byteSize < inner.byteSize) :
    (value.setChild step new).byteSize < value.byteSize := by
  cases value with
  | object entries =>
    cases step with
    | index i => cases h
    | key name =>
      have hsum := sum_entryBytes_set h hlt
      -- the part is there, so the sum without its comma loses nothing
      have hpos : 0 < ((Object.set entries name new).map fun entry => entryBytes entry + 1).sum := by
        cases hset : Object.set entries name new with
        | nil =>
          have hget := Object.get?_set entries name name new
          rw [hset, if_pos rfl, show Object.get? entries name = some inner from h] at hget
          cases hget
        | cons entry rest =>
          rw [List.map_cons, List.sum_cons]
          omega
      show (object (Object.set entries name new)).byteSize < _
      rw [byteSize_object, byteSize_object]
      omega
  | array items =>
    cases step with
    | key name => cases h
    | index i =>
      have hsum := sum_itemBytes_set h hlt
      have hpos : 0 < ((items.set i new).map fun item => item.byteSize + 1).sum := by
        cases hset : items.set i new with
        | nil =>
          have hlen := congrArg List.length hset
          rw [List.length_set, List.length_nil] at hlen
          rw [List.length_eq_zero_iff.mp hlen] at h
          cases h
        | cons item rest =>
          rw [List.map_cons, List.sum_cons]
          omega
      show (array (items.set i new)).byteSize < _
      rw [byteSize_array, byteSize_array]
      omega
  | null | bool | number | string => cases step <;> cases h

lemma byteSize_setAt {value old new : Json} {location : Location}
    (h : value.at? location = some old) (hlt : new.byteSize < old.byteSize) :
    (value.setAt location new).byteSize < value.byteSize := by
  induction location generalizing value with
  | nil =>
    injection h with h
    rw [h]
    exact hlt
  | cons step rest ih =>
    rw [at?_cons] at h
    rw [setAt]
    cases hchild : value.child step with
    | none => simp [hchild] at h
    | some inner =>
      rw [hchild] at h
      exact byteSize_setChild hchild (ih h)

lemma byteSize_drop_one {item : Json} {rest : List Json} (hrest : rest ≠ []) :
    (array rest).byteSize < (array (item :: rest)).byteSize := by
  obtain ⟨next, rest, rfl⟩ := List.exists_cons_of_ne_nil hrest
  rw [byteSize_array, byteSize_array]
  simp only [List.map_cons, List.sum_cons]
  omega

end Json

/-! ### Boundaries -/

lemma headBoundary_le {fuel head bound : Nat}
    (hbound : isCharBoundary text bound = true) (hle : head ≤ bound) :
    headBoundary text fuel head ≤ bound := by
  induction fuel generalizing head with
  | zero => exact hle
  | succ fuel ih =>
    rw [headBoundary]
    split_ifs with hboun
    · exact hle
    · refine ih (Nat.lt_of_le_of_ne hle fun heq => ?_)
      rw [heq] at hboun
      exact hboun hbound

lemma le_tailBoundary {tail bound : Nat}
    (hbound : isCharBoundary text bound = true) (hle : bound ≤ tail) :
    bound ≤ tailBoundary text tail := by
  induction tail with
  | zero => exact hle
  | succ tail ih =>
    rw [tailBoundary]
    split_ifs with hboun
    · exact hle
    · refine ih (Nat.le_of_lt_succ (Nat.lt_of_le_of_ne hle fun heq => ?_))
      rw [heq] at hbound
      exact hboun hbound

lemma exists_boundaries {n : Nat} (h : n ≤ text.utf8ByteSize) :
    ∃ low high, isCharBoundary text low = true ∧ isCharBoundary text high = true ∧
      low ≤ n ∧ n ≤ high ∧ n ≤ low + 3 ∧ high ≤ n + 3 := by
  have hsplit : ∀ (chars : List Char) (n : Nat), n ≤ (String.ofList chars).utf8ByteSize →
      ∃ before middle after, chars = before ++ middle ++ after ∧
        (String.ofList before).utf8ByteSize ≤ n ∧
        n ≤ (String.ofList (before ++ middle)).utf8ByteSize ∧
        n ≤ (String.ofList before).utf8ByteSize + 3 ∧
        (String.ofList (before ++ middle)).utf8ByteSize ≤ n + 3 := by
    intro chars
    induction chars with
    | nil =>
      intro n hn
      have hn : n ≤ 0 := hn
      have hzero : (String.ofList []).utf8ByteSize = 0 := rfl
      refine ⟨[], [], [], rfl, ?_, ?_, ?_, ?_⟩
      · rw [hzero]; omega
      · show n ≤ (String.ofList []).utf8ByteSize
        rw [hzero]; omega
      · rw [hzero]; omega
      · show (String.ofList []).utf8ByteSize ≤ n + 3
        rw [hzero]; omega
    | cons c rest ih =>
      intro n hn
      have hsize := c.utf8Size_le_four
      have hzero : (String.ofList []).utf8ByteSize = 0 := rfl
      have hone := utf8ByteSize_ofList_cons c []
      rw [utf8ByteSize_ofList_cons] at hn
      rcases Nat.eq_zero_or_pos n with hn0 | hpos
      · -- before the first character
        refine ⟨[], [], c :: rest, rfl, ?_, ?_, ?_, ?_⟩
        · rw [hzero]; omega
        · show n ≤ (String.ofList []).utf8ByteSize
          rw [hzero]; omega
        · rw [hzero]; omega
        · show (String.ofList []).utf8ByteSize ≤ n + 3
          rw [hzero]; omega
      · by_cases hinside : n < c.utf8Size
        · -- inside the first character
          refine ⟨[], [c], rest, rfl, ?_, ?_, ?_, ?_⟩
          · rw [hzero]; omega
          · show n ≤ (String.ofList [c]).utf8ByteSize
            omega
          · rw [hzero]; omega
          · show (String.ofList [c]).utf8ByteSize ≤ n + 3
            omega
        · obtain ⟨before, middle, after, hchars, hlow, hhigh, hnear, hnear'⟩ :=
            ih (n - c.utf8Size) (by omega)
          have hmiddle := utf8ByteSize_ofList_cons c (before ++ middle)
          have hbefore := utf8ByteSize_ofList_cons c before
          refine ⟨c :: before, middle, after, by rw [hchars]; rfl, ?_, ?_, ?_, ?_⟩
          · omega
          · show n ≤ (String.ofList (c :: (before ++ middle))).utf8ByteSize
            omega
          · omega
          · show (String.ofList (c :: (before ++ middle))).utf8ByteSize ≤ n + 3
            omega
  obtain ⟨before, middle, after, hchars, hlow, hhigh, hnear, hnear'⟩ :=
    hsplit text.toList n (by rw [String.ofList_toList]; exact h)
  refine ⟨_, _, ?_, ?_, hlow, hhigh, hnear, hnear'⟩
  · exact isCharBoundary_iff.mpr ⟨before, middle ++ after, by rw [hchars, List.append_assoc], rfl⟩
  · exact isCharBoundary_iff.mpr ⟨before ++ middle, after, hchars, rfl⟩

def headOf (text : String) (keep : Nat) : Nat :=
  headBoundary text (text.utf8ByteSize - (keep + 1) / 2) ((keep + 1) / 2)

def tailOf (text : String) (keep : Nat) : Nat :=
  tailBoundary text (text.utf8ByteSize - keep / 2)

section Ends

variable {text : String} {keep keep' : Nat}

lemma headOf_spec (h : keep ≤ text.utf8ByteSize) :
    isCharBoundary text (headOf text keep) = true ∧ (keep + 1) / 2 ≤ headOf text keep :=
  headBoundary_spec text _ _ (by omega)

lemma tailOf_spec (text : String) (keep : Nat) : isCharBoundary text (tailOf text keep) = true ∧
    tailOf text keep ≤ text.utf8ByteSize - keep / 2 :=
  tailBoundary_spec text _

lemma ends_mono (hle : keep' ≤ keep) (hkeep : keep ≤ text.utf8ByteSize) :
    headOf text keep' ≤ headOf text keep ∧ tailOf text keep ≤ tailOf text keep' := by
  obtain ⟨hhead, hhead_le⟩ := headOf_spec hkeep
  obtain ⟨htail, htail_le⟩ := tailOf_spec text keep
  exact ⟨headBoundary_le hhead (by omega), le_tailBoundary htail (by omega)⟩

lemma ends_le (hkeep : keep ≤ text.utf8ByteSize) :
    headOf text keep + text.utf8ByteSize ≤ tailOf text keep + keep + 6 := by
  have hup : (keep + 1) / 2 ≤ text.utf8ByteSize := by omega
  have hdown : text.utf8ByteSize - keep / 2 ≤ text.utf8ByteSize := Nat.sub_le _ _
  obtain ⟨-, high, -, hhigh, -, hle, -, hnear⟩ := exists_boundaries hup
  obtain ⟨low, -, hlow, -, hle', -, hnear', -⟩ := exists_boundaries hdown
  have hhead : headOf text keep ≤ high := headBoundary_le hhigh hle
  have htail : low ≤ tailOf text keep := le_tailBoundary hlow hle'
  omega

end Ends

/-! ### One turn -/

structure Cut (target : FitTarget) (after : Json) (text : String) (keep : Nat)
    (start omitted rest : String) : Prop where
  saved : target.originalText = some text
  original : target.originalCount = text.utf8ByteSize
  minimum : MINIMUM_TEXT_BYTES ≤ keep
  kept : keep ≤ text.utf8ByteSize
  parts : text = start ++ omitted ++ rest
  start_end : start.utf8ByteSize = headOf text keep
  omitted_end : start.utf8ByteSize + omitted.utf8ByteSize = tailOf text keep
  retained : target.retainedCount = start.utf8ByteSize + rest.utf8ByteSize
  value : after = .string (start ++ OMISSION_MARKER ++ rest)

/-- What a run knows of the cuts it made. -/
def Trimmed (target : FitTarget) (after : Json) : Prop :=
  target.strategy = .truncate → target.Reduced →
    ∃ text keep start omitted rest, Cut target after text keep start omitted rest

lemma contentBytes_cut_lt {text start omitted rest start' omitted' rest' : String}
    (h : text = start ++ omitted ++ rest) (h' : text = start' ++ omitted' ++ rest')
    (hstart : start'.utf8ByteSize ≤ start.utf8ByteSize)
    (hrest : start.utf8ByteSize + omitted.utf8ByteSize ≤
      start'.utf8ByteSize + omitted'.utf8ByteSize)
    (hlt : start'.utf8ByteSize + rest'.utf8ByteSize < start.utf8ByteSize + rest.utf8ByteSize) :
    contentBytes start' + contentBytes rest' < contentBytes start + contentBytes rest := by
  have heq : (start' ++ omitted' ++ rest').toList = (start ++ omitted ++ rest).toList := by
    rw [← h, ← h']
  simp only [String.toList_append] at heq
  -- the shorter head starts the longer one
  obtain ⟨cut, hcut⟩ := @exists_middle start'.toList (omitted'.toList ++ rest'.toList)
    start.toList (omitted.toList ++ rest.toList)
    (by rw [← List.append_assoc, ← List.append_assoc]; exact heq)
    (by rw [String.ofList_toList, String.ofList_toList]; exact hstart)
  -- what is before the longer tail starts what is before the shorter one
  obtain ⟨shift, hshift⟩ := @exists_middle (start.toList ++ omitted.toList) rest.toList
    (start'.toList ++ omitted'.toList) rest'.toList heq.symm
    (by
      rw [String.ofList_append, String.ofList_append, String.ofList_toList, String.ofList_toList,
        String.ofList_toList, String.ofList_toList, String.utf8ByteSize_append,
        String.utf8ByteSize_append]
      exact hrest)
  have htails : rest.toList = shift ++ rest'.toList := by
    rw [hshift, List.append_assoc] at heq
    exact (List.append_cancel_left heq).symm
  have hstart_eq : start = start' ++ String.ofList cut := by
    rw [← String.toList_inj, String.toList_append, hcut, String.toList_ofList]
  have hrest_eq : rest = String.ofList shift ++ rest' := by
    rw [← String.toList_inj, String.toList_append, htails, String.toList_ofList]
  rw [hstart_eq, hrest_eq, String.utf8ByteSize_append, String.utf8ByteSize_append] at hlt
  rw [hstart_eq, hrest_eq, contentBytes_append, contentBytes_append]
  rcases Nat.eq_zero_or_pos (String.ofList cut).utf8ByteSize with hzero | hpos
  · have hshift : 0 < (String.ofList shift).utf8ByteSize := by omega
    have hcont := contentBytes_pos hshift
    omega
  · have hcont := contentBytes_pos hpos
    omega

/-- What a turn of an unexhausted target does: it shrinks the input, or it finds the target
exhausted. -/
inductive Shrinks (input : Json) (location : Location) (target : FitTarget) :
    Bool → Json → FitTarget → Prop
  | idle {target' : FitTarget} (hexhausted : target'.exhausted = true)
      (htrimmed : ∀ after, Trimmed target after → Trimmed target' after) :
      Shrinks input location target false input target'
  | reduced {target' : FitTarget} {old new : Json} (hold : input.at? location = some old)
      (hlt : new.byteSize < old.byteSize)
      (hretained : target'.retainedCount < target.retainedCount)
      (htrimmed : Trimmed target' new) :
      Shrinks input location target true (input.setAt location new) target'

section Reduce

variable {input before after value : Json} {location : Location} {target target' : FitTarget}
  {changed : Bool}

lemma shrinks_recent (hptr : target.pointer = location.pointer)
    (hvalue : input.at? location = some after) (hstrat : target.strategy = .recent)
    {kept : List Json} (hafter : after = .array kept) (hretained : target.retainedCount = kept.length)
    (h : reduce input target = some (changed, value, target')) :
    Shrinks input location target changed value target' := by
  have hfound := pointerMut_target hptr hvalue
  have huncut : ∀ {other : FitTarget} {new : Json}, other.strategy = .recent → Trimmed other new :=
    fun hother htrunc _ => by rw [hother] at htrunc; cases htrunc
  unfold reduce at h
  simp only [hfound, hvalue, hstrat, hafter, Json.asArray, Option.bind_eq_bind,
    Option.bind_some] at h
  split_ifs at h with hshort
  · cases h
    exact .idle rfl fun _ _ => huncut rfl
  · cases h
    obtain ⟨record, rest, rfl⟩ : ∃ record rest, kept = record :: rest :=
      List.exists_cons_of_length_pos (by omega)
    have hrest : rest ≠ [] := by
      rintro rfl
      exact hshort (Nat.le_refl 1)
    refine .reduced hvalue ?_ ?_ (huncut rfl)
    · rw [hafter]
      exact Json.byteSize_drop_one hrest
    · show target.retainedCount - 1 < target.retainedCount
      rw [hretained, List.length_cons]
      omega

lemma byteSize_cut_lt {text start omitted rest : String} {keep : Nat}
    (horig : target.originalCount = text.utf8ByteSize)
    (hretained : target.retainedCount ≤ target.originalCount)
    (hfresh : ¬ target.Reduced → after = .string text) (hstrat : target.strategy = .truncate)
    (hsaved : target.originalText.or after.asStr = some text) (htrimmed : Trimmed target after)
    (hkeep : keep = max (target.retainedCount - TRUNCATE_CHUNK_BYTES) MINIMUM_TEXT_BYTES)
    (hparts : text = start ++ omitted ++ rest) (hstart : start.utf8ByteSize = headOf text keep)
    (homit : start.utf8ByteSize + omitted.utf8ByteSize = tailOf text keep)
    (hlt : start.utf8ByteSize + rest.utf8ByteSize < target.retainedCount)
    (hmarker : ¬ (target.retainedCount = target.originalCount ∧
      (renderString omitted).utf8ByteSize ≤ (renderString OMISSION_MARKER).utf8ByteSize)) :
    (Json.string (start ++ OMISSION_MARKER ++ rest)).byteSize < after.byteSize := by
  by_cases hred : target.Reduced
  · -- a later turn: both ends are those of less to keep
    obtain ⟨text', keep', start', omitted', rest', hcut⟩ := htrimmed hstrat hred
    have htext : text' = text := by
      rw [hcut.saved, Option.some_or] at hsaved
      exact Option.some.inj hsaved
    subst htext
    have hsize : text'.utf8ByteSize =
        start'.utf8ByteSize + omitted'.utf8ByteSize + rest'.utf8ByteSize := by
      rw [hcut.parts, String.utf8ByteSize_append, String.utf8ByteSize_append]
    have hle : keep ≤ keep' := by
      have hends := ends_le hcut.kept
      have hmin := hcut.minimum
      have hcount := hcut.retained
      rw [← hcut.start_end, ← hcut.omitted_end] at hends
      have hchunk : TRUNCATE_CHUNK_BYTES = 1024 := rfl
      rw [hkeep]
      exact Nat.max_le.mpr ⟨by omega, hmin⟩
    obtain ⟨hhead, htail⟩ := ends_mono hle hcut.kept
    have hcont := contentBytes_cut_lt hcut.parts hparts
      (by rw [hstart, hcut.start_end]; exact hhead)
      (by rw [homit, hcut.omitted_end]; exact htail)
      (by rw [← hcut.retained]; exact hlt)
    rw [hcut.value, Json.byteSize_string, Json.byteSize_string]
    simp only [contentBytes_append]
    omega
  · -- the first turn: the marker takes less than what it replaces
    have hall : target.retainedCount = target.originalCount :=
      Nat.le_antisymm hretained (Nat.not_lt.mp hred)
    have hlonger : ¬ (renderString omitted).utf8ByteSize ≤
        (renderString OMISSION_MARKER).utf8ByteSize := fun hle => hmarker ⟨hall, hle⟩
    rw [utf8ByteSize_renderString, utf8ByteSize_renderString] at hlonger
    rw [hfresh hred, hparts, Json.byteSize_string, Json.byteSize_string]
    simp only [contentBytes_append]
    omega

section

variable (hptr : target.pointer = location.pointer) (hvalue : input.at? location = some after)
include hptr hvalue

lemma shrinks_truncate (hstrat : target.strategy = .truncate)
    (htext : target.originalText = some text ∨ target.originalText = none ∧ after = .string text)
    (horig : target.originalCount = text.utf8ByteSize)
    (hretained : target.retainedCount ≤ target.originalCount)
    (hfresh : ¬ target.Reduced → after = .string text) (htrimmed : Trimmed target after)
    (h : reduce input target = some (changed, value, target')) :
    Shrinks input location target changed value target' := by
  have hfound := pointerMut_target hptr hvalue
  have hsaved : target.originalText.or after.asStr = some text := by
    rcases htext with htext | ⟨htext, hafter⟩
    · rw [htext]
      rfl
    · rw [htext, hafter]
      rfl
  -- an exhausted target keeps its cut
  have hidle : ∀ {saved : Option String}, (saved = target.originalText ∨ saved = some text) →
      ∀ {strategy : FitStrategy}, strategy = .truncate → ∀ other, Trimmed target other →
        Trimmed { target with strategy, originalText := saved, exhausted := true } other := by
    intro saved hor strategy _ other hother _ hred
    obtain ⟨text', keep, start, omitted, rest, hcut⟩ := hother hstrat hred
    have hsame : saved = some text' := by
      rcases hor with rfl | rfl
      · exact hcut.saved
      · rw [hcut.saved, Option.some_or] at hsaved
        exact hsaved.symm
    exact ⟨text', keep, start, omitted, rest, hsame, hcut.original, hcut.minimum, hcut.kept,
      hcut.parts, hcut.start_end, hcut.omitted_end, hcut.retained, hcut.value⟩
  unfold reduce at h
  simp only [hfound, hvalue, hstrat, Option.bind_eq_bind, Option.bind_some] at h
  split_ifs at h with hsmall
  · cases h
    exact .idle rfl (hidle (.inl rfl) rfl)
  · rw [hsaved] at h
    simp only [Option.bind_some] at h
    generalize hkeep : max (target.retainedCount - TRUNCATE_CHUNK_BYTES) MINIMUM_TEXT_BYTES = keep
      at h
    have hkeep_min : MINIMUM_TEXT_BYTES ≤ keep := hkeep ▸ Nat.le_max_right _ _
    have hkeep_le : keep ≤ text.utf8ByteSize := by
      rw [← horig, ← hkeep]
      refine Nat.le_trans (Nat.max_le.mpr ⟨Nat.sub_le _ _, ?_⟩) hretained
      exact Nat.le_of_lt (Nat.not_le.mp hsmall)
    obtain ⟨hhead, -⟩ := headOf_spec hkeep_le
    obtain ⟨htail, htail_le⟩ := tailOf_spec text keep
    change (if headOf text keep + text.utf8ByteSize - tailOf text keep ≥ target.retainedCount
      then _ else (cutText text (headOf text keep) (tailOf text keep)).bind _) = _ at h
    split_ifs at h with hlarge
    · cases h
      exact .idle rfl (hidle (.inr rfl) rfl)
    · have hlt : headOf text keep < tailOf text keep := by omega
      obtain ⟨start, omitted, rest, hcut, hparts, hstart, homit⟩ :=
        cutText_of_boundary hhead htail (Nat.le_of_lt hlt)
      have hsize : text.utf8ByteSize =
          start.utf8ByteSize + omitted.utf8ByteSize + rest.utf8ByteSize := by
        rw [hparts, String.utf8ByteSize_append, String.utf8ByteSize_append]
      rw [hcut] at h
      simp only [Option.bind_some] at h
      split_ifs at h with hmarker
      · cases h
        exact .idle rfl (hidle (.inr rfl) rfl)
      · cases h
        refine .reduced hvalue ?_ (Nat.not_le.mp hlarge) fun _ _ => ?_
        · exact byteSize_cut_lt horig hretained hfresh hstrat hsaved htrimmed hkeep.symm hparts
            hstart homit (by omega) hmarker
        · refine ⟨text, keep, start, omitted, rest, rfl, horig, hkeep_min, hkeep_le, hparts,
            hstart, homit, ?_, rfl⟩
          show headOf text keep + text.utf8ByteSize - tailOf text keep =
            start.utf8ByteSize + rest.utf8ByteSize
          omega

/-- **A turn shrinks.** -/
lemma reduce_shrinks (haligned : Aligned target before after)
    (htrimmed : Trimmed target after) (h : reduce input target = some (changed, value, target')) :
    Shrinks input location target changed value target' := by
  rcases haligned.kinds with ⟨hstrat, removed, kept, -, hafter, -, hretained⟩ |
    ⟨hstrat, text, -, htext, horig, hretained, hfresh⟩
  · exact shrinks_recent hptr hvalue hstrat hafter hretained h
  · exact shrinks_truncate hptr hvalue hstrat htext horig hretained hfresh htrimmed h

end

end Reduce

/-! ### Where a run stands -/

def Json.atPointer (value : Json) (pointer : String) : Option Json :=
  (value.pointerMut pointer).bind value.at?

lemma Json.atPointer_pointer {value found : Json} {location : Location}
    (h : value.at? location = some found) : value.atPointer location.pointer = some found := by
  rw [atPointer, pointerMut_pointer h]
  exact h

/-- A place in the loop over the targets: those that had their turn in this round, those that
wait for it, and whether the round changed the input. -/
structure FitPoint (σ : Type) where
  done : List FitTarget := []
  todo : List FitTarget
  changed : Bool := false
  state : FitState σ

section Points

variable {σ : Type} (validate : FitValidator σ) (rules : List FitRule) (matched : Nat)

def FitPoint.targets (point : FitPoint σ) : List FitTarget := point.done ++ point.todo

/-- One turn of the loop, or the end of a round. -/
def FitPoint.next (point : FitPoint σ) : Except (FitExit σ) (FitPoint σ) :=
  match point.todo with
  | target :: todo => do
    let (reduced, target, state) ← fitTurn validate target point.state
    return { done := point.done ++ [target], todo, changed := point.changed || reduced, state }
  | [] =>
    if point.changed then .ok { todo := point.done, state := point.state }
    else
      .error (point.state.exit
        (.failed (noFit rules matched point.state.report point.state.budget)))

/-- The places that the loop comes to. -/
def FitPoint.Reaches : FitPoint σ → FitPoint σ → Prop :=
  Relation.ReflTransGen fun point point' => point.next validate rules matched = .ok point'

/-- The place where the loop starts, with the number of matched values. -/
def fitStart (input : Json) (work : FittingWorkBudget) (validator : σ) :
    Except (FitExit σ) (Nat × FitPoint σ) :=
  match admitInput input with
  | .error error => .error ⟨.failed error, work, validator⟩
  | .ok () =>
    match work.measure input with
    | (.error error, work) => .error ⟨.failed error, work, validator⟩
    | (.ok _, work) =>
      let expanded := do
        checkCount .fitRules rules.length MAX_FIT_RULES
        expandRules input [] rules {}
      match expanded with
      | .error error => .error ⟨.failed error, work, validator⟩
      | .ok expansion =>
        match validateRequest validate { input, work, validator } with
        | .error exit => .error exit
        | .ok (true, state) => .error (state.exit (.fitted state.input state.report))
        | .ok (false, state) => .ok (expansion.matched, { todo := expansion.targets, state })

lemma fitInputWithWorkBudget_eq (input : Json) (work : FittingWorkBudget) (validator : σ) :
    fitInputWithWorkBudget input rules work validate validator =
      match fitStart validate rules input work validator with
      | .error exit => exit
      | .ok (matched, start) =>
        fitRounds validate rules matched (MAX_FIT_TURNS + 1) start.todo start.state := by
  unfold fitInputWithWorkBudget fitStart
  cases admitInput input with
  | error error => rfl
  | ok _ =>
    dsimp only
    rcases work.measure input with ⟨_ | _, work'⟩
    · rfl
    · dsimp only
      generalize (checkCount .fitRules rules.length MAX_FIT_RULES >>= fun _ =>
        expandRules input [] rules {}) = expanded
      cases expanded with
      | error error => rfl
      | ok expansion =>
        rcases hvali : validateRequest validate { input, work := work', validator } with
          exit | ⟨_ | _, state⟩ <;> rfl

variable {validate rules matched}

lemma fitRound_reaches (done todo : List FitTarget) (changed : Bool) (state : FitState σ) :
    (∀ exit, fitRound validate todo state = .error exit →
      ∃ last, FitPoint.Reaches validate rules matched ⟨done, todo, changed, state⟩ last ∧
        last.next validate rules matched = .error exit) ∧
    ∀ reduced todo' state', fitRound validate todo state = .ok (reduced, todo', state') →
      FitPoint.Reaches validate rules matched ⟨done, todo, changed, state⟩
        ⟨done ++ todo', [], changed || reduced, state'⟩ := by
  induction todo generalizing done changed state with
  | nil =>
    refine ⟨(fun exit h => by cases h), fun reduced todo' state' h => ?_⟩
    cases h
    rw [List.append_nil, Bool.or_false]
    exact .refl
  | cons target todo ih =>
    rw [fitRound]
    cases hturn : fitTurn validate target state with
    | error exit' =>
      refine ⟨fun exit h => ?_, fun reduced todo' state' h => by cases h⟩
      cases h
      refine ⟨_, .refl, ?_⟩
      show (fitTurn validate target state).bind _ = _
      rw [hturn]
      rfl
    | ok turn =>
      obtain ⟨reduced, target', state'⟩ := turn
      have hnext : FitPoint.next validate rules matched ⟨done, target :: todo, changed, state⟩ =
          .ok ⟨done ++ [target'], todo, changed || reduced, state'⟩ := by
        show (fitTurn validate target state).bind _ = _
        rw [hturn]
        rfl
      obtain ⟨herror, hok⟩ := ih (done ++ [target']) (changed || reduced) state'
      constructor
      · intro exit h
        change (fitRound validate todo state').bind _ = _ at h
        cases hround : fitRound validate todo state' with
        | error exit' =>
          rw [hround] at h
          cases h
          obtain ⟨last, hreaches, hlast⟩ := herror exit hround
          exact ⟨last, .head hnext hreaches, hlast⟩
        | ok round =>
          rw [hround] at h
          cases h
      · intro reduced' todo' state'' h
        change (fitRound validate todo state').bind _ = _ at h
        cases hround : fitRound validate todo state' with
        | error exit' =>
          rw [hround] at h
          cases h
        | ok round =>
          obtain ⟨more, todo'', stateEnd⟩ := round
          rw [hround] at h
          cases h
          have hrest := hok _ _ _ hround
          rw [List.append_assoc, Bool.or_assoc] at hrest
          exact .head hnext hrest

lemma fitRounds_reaches (fuel : Nat) (targets : List FitTarget) (state : FitState σ)
    (h : (fitRounds validate rules matched fuel targets state).outcome ≠ .unfinished) :
    ∃ last, FitPoint.Reaches validate rules matched { todo := targets, state } last ∧
      last.next validate rules matched =
        .error (fitRounds validate rules matched fuel targets state) := by
  induction fuel generalizing targets state with
  | zero => exact absurd rfl h
  | succ fuel ih =>
    obtain ⟨herror, hok⟩ := @fitRound_reaches _ validate rules matched [] targets false state
    rw [fitRounds] at h ⊢
    cases hround : fitRound validate targets state with
    | error exit => exact herror exit hround
    | ok round =>
      obtain ⟨reduced, targets', state'⟩ := round
      have hend := hok reduced targets' state' hround
      rw [hround] at h
      rw [List.nil_append, Bool.false_or] at hend
      cases reduced with
      | false => exact ⟨_, hend, rfl⟩
      | true =>
        obtain ⟨last, hreaches, hlast⟩ := ih targets' state' h
        exact ⟨last, hend.trans (.head rfl hreaches), hlast⟩

/-! ### Along a run -/

/-- What a run knows at a place of the loop: its targets fit, and each cut is known. -/
structure Stands (locations : List Location) (input : Json) (point : FitPoint σ)
    (done todo : List Placed) : Prop where
  done_eq : point.done = done.map (·.2)
  todo_eq : point.todo = todo.map (·.2)
  fits : Fits locations input point.state.input point.state.report (done ++ todo)
  trimmed : ∀ placed ∈ done ++ todo, ∀ after, point.state.input.at? placed.1 = some after →
    Trimmed placed.2 after

/-- Exhausted targets, and the values they point to, stay as they are. -/
def FitPoint.Keeps (point later : FitPoint σ) : Prop :=
  ∀ (i : Nat) (target : FitTarget), point.targets[i]? = some target → target.exhausted = true →
    later.targets[i]? = some target ∧
      later.state.input.atPointer target.pointer = point.state.input.atPointer target.pointer

lemma FitPoint.Keeps.trans {point later last : FitPoint σ} (h : point.Keeps later)
    (h' : later.Keeps last) : point.Keeps last := by
  intro i target htarget hexhausted
  obtain ⟨hlater, hvalue⟩ := h i target htarget hexhausted
  obtain ⟨hlast, hvalue'⟩ := h' i target hlater hexhausted
  exact ⟨hlast, hvalue'.trans hvalue⟩

lemma fitTurn_ok {target target' : FitTarget} {state state' : FitState σ} {changed : Bool}
    (h : fitTurn validate target state = .ok (changed, target', state')) :
    target.exhausted = true ∧ target' = target ∧ state' = state ∨
      target.exhausted = false ∧
        reduce state.input target = some (changed, state'.input, target') := by
  unfold fitTurn at h
  split_ifs at h with hexhausted
  · cases h
    exact .inl ⟨hexhausted, rfl, rfl⟩
  · refine .inr ⟨Bool.eq_false_iff.mpr hexhausted, ?_⟩
    dsimp only at h
    cases hcount : checkCount .turns (state.turns + 1) MAX_FIT_TURNS with
    | error error =>
      rw [hcount] at h
      cases h
    | ok _ =>
      rw [hcount] at h
      dsimp only at h
      rcases hreduce : reduce state.input target with _ | ⟨_ | _, input, reduced⟩
      · rw [hreduce] at h
        cases h
      · rw [hreduce] at h
        cases h
        rfl
      · rw [hreduce] at h
        dsimp only at h
        obtain ⟨measured, hmsr, h⟩ := Except.of_bind_ok h
        have hinput : measured.input = input := by
          unfold FitState.measure at hmsr
          split at hmsr
          · cases hmsr
          · cases hmsr
            rfl
        obtain ⟨⟨accepted, validated⟩, hvali, h⟩ := Except.of_bind_ok h
        dsimp only at h
        split_ifs at h
        cases h
        rcases validateRequest_spec validate { measured with
            report := ⟨saveOmission target'.omission measured.report.omissions⟩ } with
          ⟨_, _, hfailed, -⟩ | ⟨_, _, hok, hstate, -⟩
        · rw [hfailed] at hvali
          cases hvali
        · rw [hok] at hvali
          cases hvali
          rw [hstate.input, ← hinput]

section Run

variable {locations : List Location} {input : Json} {point point' : FitPoint σ}
  {done todo : List Placed} {location : Location} {target : FitTarget}

lemma Stands.shrinks (h : Stands locations input point done ((location, target) :: todo))
    {changed : Bool} {value : Json} {target' : FitTarget}
    (hreduce : reduce point.state.input target = some (changed, value, target')) :
    Shrinks point.state.input location target changed value target' := by
  obtain ⟨before, after, -, hafter, haligned⟩ :=
    h.fits.aligned (location, target) (mem_middle.mpr (.inl rfl))
  exact reduce_shrinks (h.fits.pointer (location, target) (mem_middle.mpr (.inl rfl))) hafter haligned
    (h.trimmed (location, target) (mem_middle.mpr (.inl rfl)) after hafter) hreduce

section

variable (hapart : locations.Pairwise Location.Diverges)
include hapart

lemma Stands.turn (h : Stands locations input point done ((location, target) :: todo))
    (hnext : point.next validate rules matched = .ok point') :
    (∃ target', Stands locations input point' (done ++ [(location, target')]) todo) ∧
      point.Keeps point' := by
  have htodo : point.todo = target :: todo.map (·.2) := h.todo_eq
  unfold FitPoint.next at hnext
  rw [htodo] at hnext
  dsimp only at hnext
  obtain ⟨⟨reduced, target', state'⟩, hturn, hnext⟩ := Except.of_bind_ok hnext
  cases hnext
  have hfits : Fits locations input state'.input state'.report
      (done ++ (location, target') :: todo) := by
    rcases fitTurn_spec validate hapart h.fits with ⟨_, herror, -⟩ | ⟨_, _, _, hok, hfits, -⟩
    · rw [hturn] at herror
      cases herror
    · rw [hturn] at hok
      cases hok
      exact hfits
  -- the values at the other places
  have hother : ∀ placed ∈ done ++ todo,
      state'.input.at? placed.1 = point.state.input.at? placed.1 := by
    intro placed hmem
    rcases fitTurn_ok hturn with ⟨-, -, rfl⟩ | ⟨-, hreduce⟩
    · rfl
    · have hshr := h.shrinks hreduce
      generalize state'.input = value at hshr ⊢
      cases hshr with
      | idle => rfl
      | reduced => exact Json.at?_setAt_of_diverges _ _ (h.fits.diverges hapart hmem)
  constructor
  · refine ⟨target', ?_, rfl, ?_, ?_⟩
    · show point.done ++ [target'] = _
      rw [h.done_eq, List.map_append]
      rfl
    · rw [List.append_assoc]
      exact hfits
    · intro placed hplaced after hafter
      rw [List.append_assoc] at hplaced
      rcases mem_middle.mp hplaced with rfl | hmem
      · rcases fitTurn_ok hturn with ⟨-, rfl, rfl⟩ | ⟨-, hreduce⟩
        · exact h.trimmed _ (mem_middle.mpr (.inl rfl)) after hafter
        · have hshr := h.shrinks hreduce
          change state'.input.at? location = some after at hafter
          generalize state'.input = value at hshr hafter
          cases hshr with
          | idle _ htrimmed =>
            exact htrimmed after
              (h.trimmed (location, target) (mem_middle.mpr (.inl rfl)) after hafter)
          | reduced hold _ _ htrimmed =>
            rw [Json.at?_setAt_self hold] at hafter
            injection hafter with hafter
            exact hafter ▸ htrimmed
      · change state'.input.at? placed.1 = some after at hafter
        rw [hother placed hmem] at hafter
        exact h.trimmed placed (mem_middle.mpr (.inr hmem)) after hafter
  · intro i exhausted hget hexhausted
    change (point.done ++ point.todo)[i]? = some exhausted at hget
    rw [htodo] at hget
    show ((point.done ++ [target']) ++ todo.map (·.2))[i]? = some exhausted ∧
      state'.input.atPointer exhausted.pointer = point.state.input.atPointer exhausted.pointer
    rw [List.append_assoc]
    by_cases hi : i = point.done.length
    · -- the target whose turn it was
      subst hi
      rw [List.getElem?_append_right (Nat.le_refl _), Nat.sub_self] at hget ⊢
      injection hget with hget
      subst hget
      rcases fitTurn_ok hturn with ⟨-, rfl, rfl⟩ | ⟨hfalse, -⟩
      · exact ⟨rfl, rfl⟩
      · rw [hexhausted] at hfalse
        cases hfalse
    · have hsame : (point.done ++ ([target'] ++ todo.map (·.2)))[i]? =
          (point.done ++ target :: todo.map (·.2))[i]? := by
        rcases Nat.lt_or_ge i point.done.length with hlt | hge
        · rw [List.getElem?_append_left hlt, List.getElem?_append_left hlt]
        · obtain ⟨j, hj⟩ := Nat.exists_eq_succ_of_ne_zero
            (show i - point.done.length ≠ 0 by omega)
          rw [List.getElem?_append_right hge, List.getElem?_append_right hge, hj]
          rfl
      refine ⟨hsame.trans hget, ?_⟩
      have hmem : exhausted ∈ (done ++ todo).map (·.2) := by
        rw [h.done_eq, List.getElem?_append] at hget
        rw [List.map_append, List.mem_append]
        split_ifs at hget with hlt
        · exact .inl (List.mem_of_getElem? hget)
        · obtain ⟨j, hj⟩ := Nat.exists_eq_succ_of_ne_zero
            (show i - (done.map (·.2)).length ≠ 0 by rw [← h.done_eq] at hlt ⊢; omega)
          rw [hj] at hget
          exact .inr (List.mem_of_getElem? hget)
      obtain ⟨placed, hplaced, rfl⟩ := List.mem_map.mp hmem
      have hplaced' : placed ∈ done ++ (location, target) :: todo :=
        mem_middle.mpr (.inr hplaced)
      obtain ⟨-, after, -, hafter, -⟩ := h.fits.aligned placed hplaced'
      rw [h.fits.pointer placed hplaced', Json.atPointer_pointer hafter,
        Json.atPointer_pointer ((hother placed hplaced).trans hafter)]

lemma Stands.next (h : Stands locations input point done todo)
    (hnext : point.next validate rules matched = .ok point') :
    (∃ done' todo', Stands locations input point' done' todo') ∧ point.Keeps point' := by
  cases todo with
  | cons placed todo =>
    obtain ⟨location, target⟩ := placed
    obtain ⟨⟨target', hstands⟩, hkeeps⟩ := h.turn hapart hnext
    exact ⟨⟨_, _, hstands⟩, hkeeps⟩
  | nil =>
    have htodo : point.todo = [] := h.todo_eq
    unfold FitPoint.next at hnext
    rw [htodo] at hnext
    dsimp only at hnext
    split_ifs at hnext
    cases hnext
    refine ⟨⟨[], done, rfl, h.done_eq, ?_, ?_⟩, ?_⟩
    · have hfits := h.fits
      rw [List.append_nil] at hfits
      exact hfits
    · intro placed hplaced
      exact h.trimmed placed (by rw [List.append_nil]; exact hplaced)
    · intro i target hget hexhausted
      change (point.done ++ point.todo)[i]? = some target at hget
      rw [htodo, List.append_nil] at hget
      exact ⟨hget, rfl⟩

lemma Stands.reaches
    (h : Stands locations input point done todo) (hreaches : point.Reaches validate rules matched point') :
    (∃ done' todo', Stands locations input point' done' todo') ∧ point.Keeps point' := by
  induction hreaches with
  | refl => exact ⟨⟨_, _, h⟩, fun _ _ hget _ => ⟨hget, rfl⟩⟩
  | tail _ hnext ih =>
    obtain ⟨⟨done', todo', hstands⟩, hkeeps⟩ := ih
    obtain ⟨hstands', hkeeps'⟩ := hstands.next hapart hnext
    exact ⟨hstands', hkeeps.trans hkeeps'⟩

end

end Run

/-! ### The whole loop -/

variable (validate rules) in
lemma fitStart_spec {input : Json} {work : FittingWorkBudget} {validator : σ}
    {start : FitPoint σ} (h : fitStart validate rules input work validator = .ok (matched, start)) :
    start = { todo := start.todo, state := start.state } ∧
      ∃ locations todo, locations.Pairwise Location.Diverges ∧
        Stands locations input start [] todo := by
  unfold fitStart at h
  split at h
  · cases h
  split at h
  · cases h
  · rename_i work' _
    dsimp only at h
    split at h
    · cases h
    · rename_i expansion hexpan
      cases hrules : checkCount .fitRules rules.length MAX_FIT_RULES with
      | error error =>
        rw [hrules] at hexpan
        cases hexpan
      | ok _ =>
        rw [hrules] at hexpan
        obtain ⟨added, hadded⟩ := expandRules_spec
          (show Planned input [] ({} : Expansion).targets [] from
            ⟨rfl, fun _ hmem => absurd hmem List.not_mem_nil, .nil⟩) hexpan
        rcases validateRequest_spec validate { input, work := work', validator } with
          ⟨_, _, hfailed, -⟩ | ⟨accepted, state, hok, hstate, -⟩
        · rw [hfailed] at h
          cases h
        · rw [hok] at h
          cases accepted with
          | true => cases h
          | false =>
            cases h
            refine ⟨rfl, added.map (·.1), added, hadded.apart, rfl, hadded.targets, ?_, ?_⟩
            · rw [hstate.input, hstate.report]
              exact hadded.fits
            · -- nothing is cut yet
              intro placed hplaced after _ _ hred
              rw [FitTarget.Reduced, (hadded.fresh placed hplaced).1.retained] at hred
              exact absurd hred (Nat.lt_irrefl _)

/-- **Fitting ends by shrinking.**  For every input, rule list and validator a run ends with an
accepted request or a failure.  Each turn of its loop either makes the serialized input shorter
and lowers the retained count of its target, or finds its target exhausted; and exhausted targets
stay as they are, with the values they point to. -/
theorem fitting_ends_by_shrinking (input : Json) (rules : List FitRule) (work : FittingWorkBudget)
    (validate : FitValidator σ) (validator : σ) :
    ((∃ error, (fitInputWithWorkBudget input rules work validate validator).outcome =
        .failed error) ∨
      ∃ value report, (fitInputWithWorkBudget input rules work validate validator).outcome =
        .fitted value report) ∧
    (∀ exit, fitStart validate rules input work validator = .error exit →
      fitInputWithWorkBudget input rules work validate validator = exit) ∧
    ∀ matched start, fitStart validate rules input work validator = .ok (matched, start) →
      (∃ last, start.Reaches validate rules matched last ∧ last.next validate rules matched =
        .error (fitInputWithWorkBudget input rules work validate validator)) ∧
      ∀ point, start.Reaches validate rules matched point →
        (∀ target todo, point.todo = target :: todo → target.exhausted = false →
          ∃ changed value target',
            reduce point.state.input target = some (changed, value, target') ∧
            (changed = true →
              value.render.utf8ByteSize < point.state.input.render.utf8ByteSize ∧
              target'.retainedCount < target.retainedCount) ∧
            (changed = false → value = point.state.input ∧ target'.exhausted = true)) ∧
        ∀ later, point.Reaches validate rules matched later → point.Keeps later := by
  have hend : (∃ error, (fitInputWithWorkBudget input rules work validate validator).outcome =
      .failed error) ∨
      ∃ value report, (fitInputWithWorkBudget input rules work validate validator).outcome =
        .fitted value report := by
    rcases fitInputWithWorkBudget_spec input rules work validate validator with
      hfailed | ⟨_, _, _, hexit⟩
    · exact .inl hfailed
    · cases hexit with
      | failed houtcome => exact .inl ⟨_, houtcome⟩
      | fitted houtcome _ _ => exact .inr ⟨_, _, houtcome⟩
  have heq := fitInputWithWorkBudget_eq validate rules input work validator
  refine ⟨hend, fun exit hstart => ?_, fun matched start hstart => ⟨?_, fun point hpoint => ?_⟩⟩
  · rw [heq, hstart]
  · rw [hstart] at heq
    have hunfinished : (fitRounds validate rules matched (MAX_FIT_TURNS + 1) start.todo
        start.state).outcome ≠ .unfinished := by
      change _ = fitRounds validate rules matched (MAX_FIT_TURNS + 1) start.todo start.state at heq
      rw [← heq]
      rcases hend with ⟨error, houtcome⟩ | ⟨value, report, houtcome⟩
      · rw [houtcome]
        exact nofun
      · rw [houtcome]
        exact nofun
    obtain ⟨last, hreaches, hlast⟩ := fitRounds_reaches _ _ _ hunfinished
    refine ⟨last, ?_, by rw [heq]; exact hlast⟩
    rw [(fitStart_spec validate rules hstart).1]
    exact hreaches
  · obtain ⟨-, locations, todo₀, hapart, hstands⟩ := fitStart_spec validate rules hstart
    obtain ⟨⟨done, todo, hpointStands⟩, -⟩ := hstands.reaches hapart hpoint
    refine ⟨fun target rest htodo hexhausted => ?_, fun later hlater =>
      (hpointStands.reaches hapart hlater).2⟩
    obtain ⟨location, todo', rfl⟩ : ∃ location todo', todo = (location, target) :: todo' := by
      have hmap := hpointStands.todo_eq.symm.trans htodo
      cases todo with
      | nil => cases hmap
      | cons placed todo' =>
        rw [List.map_cons] at hmap
        injection hmap with hhead _
        exact ⟨placed.1, todo', by rw [← hhead]⟩
    have hmem : (location, target) ∈ done ++ (location, target) :: todo' :=
      mem_middle.mpr (.inl rfl)
    obtain ⟨before, after, -, hafter, haligned⟩ := hpointStands.fits.aligned _ hmem
    obtain ⟨⟨changed, value, target'⟩, hreduce, -⟩ :=
      reduce_spec (hpointStands.fits.pointer _ hmem) hafter haligned
    refine ⟨changed, value, target', hreduce, ?_⟩
    cases hpointStands.shrinks hreduce with
    | idle hidle _ => exact ⟨(fun hfalse => by cases hfalse), fun _ => ⟨rfl, hidle⟩⟩
    | reduced hold hlt hretained _ =>
      refine ⟨fun _ => ⟨?_, hretained⟩, (fun hfalse => by cases hfalse)⟩
      rw [← Json.byteSize_eq_render, ← Json.byteSize_eq_render]
      exact Json.byteSize_setAt hold hlt

end Points

/-! ### A run -/

def startsWith {σ : Type} (targets : List FitTarget) : Except (FitExit σ) (Nat × FitPoint σ) → Bool
  | .ok (_, start) => decide (start.todo = targets)
  | .error _ => false

/-- The target of a rule that keeps the recent ones of two notes. -/
def notesTarget : FitTarget := ⟨"/notes", "notes", .recent, 2, 2, none, false⟩

/-- The first turn drops a note. -/
theorem fitting_ends_by_shrinking_records :
    ∃ matched start,
      fitStart (fun rejections work value report =>
          ((acceptAfter rejections value report).1, work, (acceptAfter rejections value report).2))
        [⟨"notes", [.field "notes"], .recent⟩] (.object [("notes", twoRecords)]) {} 1 =
          .ok (matched, start) ∧
      start.todo = [notesTarget] ∧
      ∃ changed value target', reduce start.state.input notesTarget =
          some (changed, value, target') ∧
        (changed = true →
          value.render.utf8ByteSize < start.state.input.render.utf8ByteSize ∧
          target'.retainedCount < notesTarget.retainedCount) ∧
        (changed = false → value = start.state.input ∧ target'.exhausted = true) := by
  have hstart : startsWith [notesTarget]
      (fitStart (fun rejections work value report =>
          ((acceptAfter rejections value report).1, work, (acceptAfter rejections value report).2))
        [⟨"notes", [.field "notes"], .recent⟩] (.object [("notes", twoRecords)]) {} 1) = true := by
    decide
  obtain ⟨-, -, hruns⟩ := fitting_ends_by_shrinking (.object [("notes", twoRecords)])
    [⟨"notes", [.field "notes"], .recent⟩] {}
    (fun rejections work value report =>
      ((acceptAfter rejections value report).1, work, (acceptAfter rejections value report).2)) 1
  generalize fitStart _ _ _ _ _ = started at hstart hruns ⊢
  rcases started with exit | ⟨matched, start⟩
  · cases hstart
  · have htodo : start.todo = [notesTarget] := of_decide_eq_true hstart
    obtain ⟨-, hpoints⟩ := hruns matched start rfl
    exact ⟨matched, start, rfl, htodo, (hpoints start .refl).1 notesTarget [] htodo rfl⟩

end Antiburn
