/-
`toJSON` and `fromJSON` of the check language.

* The writer is written by hand: runs of plain characters, escapes, separators,
  and the entries of an object in the order of their keys.  Its text is that of
  `render`, whatever order the entries come in.
* The reader is a visitor over what `serde_json` shows of a text.  `ShowsJson`
  says what it shows: the parts of a JSON text, within its recursion limit.
-/
import Antiburn.Lib.Table
import Antiburn.StrictJson

namespace Antiburn

open EvalM

/-! ### The writer, with its sort -/

/-- The entries of an object, each ready to write its value, in the order of their keys. -/
def writeFields : Bool → List (String × (JsonOutput → EvalM JsonOutput)) → JsonOutput →
    EvalM JsonOutput
  | _, [], output => pure output
  | first, (key, write) :: rest, output => do
    let output ← if first then pure output else output.append ","
    let output : JsonOutput := { output with text := ← writeString key output.text }
    let output ← output.append ":"
    let output ← write output
    writeFields false rest output

mutual

/-- `write_json` of a value whose entries are in any order: `sort_unstable_by_key` puts them in
that of their keys. -/
def writeSorted (depth : Nat) : Json → ValueProvenance → JsonOutput → EvalM JsonOutput
  | .array items, provenance, output => do
    step depth
    let output := { output with sources := provenance.collectSources (.array items) output.sources }
    visitItems items.length
    let output ← output.append "["
    let output ← writeSortedItems depth provenance 0 items output
    output.append "]"
  | .object entries, provenance, output => do
    step depth
    let output :=
      { output with sources := provenance.collectSources (.object entries) output.sources }
    visitItems entries.length
    let entries := (fieldWriters depth provenance entries).insertionSort fun a b => a.1 ≤ b.1
    let output ← output.append "\x7b"
    let output ← writeFields true entries output
    output.append "\x7d"
  | .string text, provenance, output => do
    step depth
    let sources := provenance.collectSources (.string text) output.sources
    return ⟨← writeString text output.text, sources⟩
  | value, provenance, output => do
    step depth
    let output := { output with sources := provenance.collectSources value output.sources }
    match value with
    | .null => output.append "null"
    | .bool value => output.append (if value then "true" else "false")
    | value =>
      let text ← scalarText value
      output.append text

@[inherit_doc writeSorted]
def writeSortedItems (depth : Nat) (provenance : ValueProvenance) :
    Nat → List Json → JsonOutput → EvalM JsonOutput
  | _, [], output => pure output
  | index, item :: rest, output => do
    let output ← if 0 < index then output.append "," else pure output
    let output ← writeSorted (depth + 1) item (provenance.child (.index index)) output
    writeSortedItems depth provenance (index + 1) rest output

@[inherit_doc writeSorted]
def fieldWriters (depth : Nat) (provenance : ValueProvenance) :
    List (String × Json) → List (String × (JsonOutput → EvalM JsonOutput))
  | [] => []
  | (key, value) :: rest =>
    (key, writeSorted (depth + 1) value (provenance.child (.property key))) ::
      fieldWriters depth provenance rest

end

/-! ### The order of the entries -/

namespace Object

variable {entries extra : Object}

lemma insert_eq_orderedInsert {key : String} (value : Json)
    (h : key ∉ entries.map Prod.fst) :
    entries.insert key value = entries.orderedInsert (fun a b => a.1 ≤ b.1) (key, value) := by
  induction entries with
  | nil => rfl
  | cons entry rest ih =>
    obtain ⟨name, old⟩ := entry
    rw [List.map_cons, List.mem_cons, not_or] at h
    rw [insert, if_neg fun heq => h.1 heq.symm, List.orderedInsert, ih h.2]
    have hle : key < name ↔ key ≤ name := ⟨le_of_lt, fun hle => lt_of_le_of_ne hle h.1⟩
    simp only [hle]

lemma pairwise_orderedInsert {key : String} (value : Json)
    (hsorted : entries.Pairwise fun a b => a.1 < b.1) (h : key ∉ entries.map Prod.fst) :
    (entries.orderedInsert (fun a b => a.1 ≤ b.1) (key, value)).Pairwise fun a b => a.1 < b.1 := by
  induction entries with
  | nil => exact List.pairwise_singleton _ _
  | cons entry rest ih =>
    obtain ⟨hhead, hrest⟩ := List.pairwise_cons.mp hsorted
    rw [List.map_cons, List.mem_cons, not_or] at h
    rw [List.orderedInsert]
    split_ifs with hle
    · have hlt : key < entry.1 := lt_of_le_of_ne hle h.1
      refine List.pairwise_cons.mpr ⟨fun other hother => ?_, hsorted⟩
      rcases List.mem_cons.mp hother with rfl | hmem
      · exact hlt
      · exact lt_trans hlt (hhead other hmem)
    · refine List.pairwise_cons.mpr ⟨fun other hother => ?_, ih hrest h.2⟩
      rcases (List.mem_orderedInsert _).mp hother with rfl | hmem
      · exact lt_of_not_ge hle
      · exact hhead other hmem

lemma extend_spec (hsorted : entries.Pairwise fun a b => a.1 < b.1)
    (hkeys : (extra.map Prod.fst).Nodup) (hnew : ∀ key ∈ extra.map Prod.fst, key ∉ entries.map Prod.fst) :
    (entries.extend extra).Pairwise (fun a b => a.1 < b.1) ∧
      (entries.extend extra).Perm (entries ++ extra) := by
  induction extra generalizing entries with
  | nil => exact ⟨hsorted, by rw [List.append_nil]; exact List.Perm.refl _⟩
  | cons entry rest ih =>
    obtain ⟨key, value⟩ := entry
    have hkey : key ∉ entries.map Prod.fst := hnew key List.mem_cons_self
    obtain ⟨hfirst, hrest⟩ := List.nodup_cons.mp hkeys
    have hperm : (entries.insert key value).Perm ((key, value) :: entries) := by
      rw [insert_eq_orderedInsert value hkey]
      exact List.perm_orderedInsert _ _ _
    have hsorted' : (entries.insert key value).Pairwise fun a b => a.1 < b.1 := by
      rw [insert_eq_orderedInsert value hkey]
      exact pairwise_orderedInsert value hsorted hkey
    have hnew' : ∀ other ∈ rest.map Prod.fst, other ∉ (entries.insert key value).map Prod.fst := by
      intro other hother hmem
      rcases List.mem_cons.mp ((hperm.map Prod.fst).mem_iff.mp hmem) with heq | hmem
      · have heq : other = key := heq
        exact hfirst (heq ▸ hother)
      · exact hnew other (List.mem_cons_of_mem _ hother) hmem
    obtain ⟨hpairw, hall⟩ := ih hsorted' hrest hnew'
    exact ⟨hpairw, (hall.trans (hperm.append_right rest)).trans List.perm_middle.symm⟩

lemma extend_eq_insertionSort (hkeys : (extra.map Prod.fst).Nodup) :
    Object.extend [] extra = extra.insertionSort fun a b => a.1 ≤ b.1 := by
  obtain ⟨hpairw, hperm⟩ := @extend_spec [] extra .nil hkeys fun _ _ h => by cases h
  have hsort := List.perm_insertionSort (fun a b : String × Json => a.1 ≤ b.1) extra
  have hnodup : ((extra.insertionSort fun a b => a.1 ≤ b.1).map Prod.fst).Nodup :=
    (hsort.map Prod.fst).nodup_iff.mpr hkeys
  have hstrict : (extra.insertionSort fun a b => a.1 ≤ b.1).Pairwise fun a b => a.1 < b.1 := by
    have hle := List.pairwise_insertionSort (fun a b : String × Json => a.1 ≤ b.1) extra
    have hne := List.pairwise_map.mp hnodup
    exact (hle.and hne).imp fun h => lt_of_le_of_ne h.1 h.2
  refine List.Perm.eq_of_pairwise (fun a b _ _ hab hba => ?_) hpairw hstrict
    (hperm.trans hsort.symm)
  exact absurd hba (lt_asymm hab)

lemma extend_perm {extra' : Object} (h : extra.Perm extra')
    (hkeys : (extra.map Prod.fst).Nodup) : Object.extend [] extra = Object.extend [] extra' := by
  have hkeys' : (extra'.map Prod.fst).Nodup := (h.map Prod.fst).nodup_iff.mp hkeys
  obtain ⟨hpairw, hperm⟩ := @extend_spec [] extra .nil hkeys fun _ _ h => by cases h
  obtain ⟨hpairw', hperm'⟩ := @extend_spec [] extra' .nil hkeys' fun _ _ h => by cases h
  refine List.Perm.eq_of_pairwise (fun a b _ _ hab hba => ?_) hpairw hpairw'
    ((hperm.trans h).trans hperm'.symm)
  exact absurd hba (lt_asymm hab)

end Object

namespace Json

lemma map_fst_normalizeEntries (entries : List (String × Json)) :
    (normalizeEntries entries).map Prod.fst = entries.map Prod.fst := by
  induction entries with
  | nil => rfl
  | cons entry rest ih =>
    obtain ⟨key, item⟩ := entry
    rw [normalizeEntries, List.map_cons, List.map_cons, ih]

lemma normalizeEntries_eq (entries : List (String × Json)) :
    normalizeEntries entries = entries.map fun entry => (entry.1, entry.2.normalize) := by
  induction entries with
  | nil => rfl
  | cons entry rest ih =>
    obtain ⟨key, item⟩ := entry
    rw [normalizeEntries, ih, List.map_cons]

lemma length_normalizeItems (items : List Json) :
    (normalizeItems items).length = items.length := by
  induction items with
  | nil => rfl
  | cons item rest ih => rw [normalizeItems, List.length_cons, ih, List.length_cons]

/-- Two values that differ in the order of entries, in any of their objects. -/
inductive Reordered : Json → Json → Prop
  | refl (value : Json) : Reordered value value
  | trans {a b c : Json} (h : Reordered a b) (h' : Reordered b c) : Reordered a c
  | entries {entries entries' : List (String × Json)} (h : entries.Perm entries') :
      Reordered (.object entries) (.object entries')
  | item {before after : List Json} {item item' : Json} (h : Reordered item item') :
      Reordered (.array (before ++ item :: after)) (.array (before ++ item' :: after))
  | entry {before after : List (String × Json)} {key : String} {value value' : Json}
      (h : Reordered value value') :
      Reordered (.object (before ++ (key, value) :: after))
        (.object (before ++ (key, value') :: after))

mutual

lemma distinct_of_sorted : ∀ value : Json, value.Sorted → value.Distinct
  | .null, _ => trivial
  | .bool _, _ => trivial
  | .number _, _ => trivial
  | .string _, _ => trivial
  | .array items, h => distinctItems_of_sorted items h
  | .object entries, h => ⟨h.1.imp fun hlt => ne_of_lt hlt, distinctEntries_of_sorted entries h.2⟩

lemma distinctItems_of_sorted : ∀ items : List Json, SortedItems items → DistinctItems items
  | [], _ => trivial
  | item :: rest, h => ⟨distinct_of_sorted item h.1, distinctItems_of_sorted rest h.2⟩

lemma distinctEntries_of_sorted : ∀ entries : List (String × Json), SortedEntries entries →
    DistinctEntries entries
  | [], _ => trivial
  | (_, item) :: rest, h => ⟨distinct_of_sorted item h.1, distinctEntries_of_sorted rest h.2⟩

end

lemma Reordered.normalize_eq {value value' : Json} (h : Reordered value value')
    (hdistinct : value.Distinct) : value'.Distinct ∧ value'.normalize = value.normalize := by
  induction h with
  | refl value => exact ⟨hdistinct, rfl⟩
  | trans _ _ ih ih' =>
    obtain ⟨hmiddle, heq⟩ := ih hdistinct
    obtain ⟨hlast, heq'⟩ := ih' hmiddle
    exact ⟨hlast, heq'.trans heq⟩
  | @entries entries entries' hperm =>
    obtain ⟨hkeys, hents⟩ := hdistinct
    have hkeys' := (hperm.map Prod.fst).nodup_iff.mp hkeys
    refine ⟨⟨hkeys', ?_⟩, ?_⟩
    · rw [distinctEntries_iff] at hents ⊢
      exact fun entry hentry => hents entry (hperm.mem_iff.mpr hentry)
    · rw [normalize, normalize, normalizeEntries_eq, normalizeEntries_eq]
      refine congrArg Json.object (Object.extend_perm (hperm.symm.map _) ?_)
      rw [List.map_map]
      exact hkeys'
  | @item before after item item' _ ih =>
    have hitems := distinctItems_iff.mp hdistinct
    obtain ⟨hitem, heq⟩ := ih (hitems item (List.mem_append_right _ List.mem_cons_self))
    have happend : ∀ a b : List Json, normalizeItems (a ++ b) =
        normalizeItems a ++ normalizeItems b := by
      intro a b
      induction a with
      | nil => rfl
      | cons item rest ih => rw [List.cons_append, normalizeItems, ih, normalizeItems]; rfl
    refine ⟨distinctItems_iff.mpr (List.forall_around hitem hitems), ?_⟩
    · rw [normalize, normalize, happend, happend, normalizeItems, normalizeItems, heq]
  | @entry before after key value value' _ ih =>
    obtain ⟨hkeys, hents⟩ := hdistinct
    rw [distinctEntries_iff] at hents
    obtain ⟨hvalue, heq⟩ :=
      ih (hents (key, value) (List.mem_append_right _ List.mem_cons_self))
    refine ⟨⟨?_, distinctEntries_iff.mpr (List.forall_around hvalue hents)⟩, ?_⟩
    · rw [List.map_append, List.map_cons] at hkeys ⊢
      exact hkeys
    · rw [normalize, normalize, normalizeEntries_eq, normalizeEntries_eq, List.map_append,
        List.map_append, List.map_cons, List.map_cons, heq]

end Json

/-! ### The order in which an object is written -/

lemma isContainer_normalize (value : Json) : value.normalize.isContainer = value.isContainer := by
  cases value <;> rfl

lemma collectSources_normalize (prov : ValueProvenance) (value : Json)
    (sources : EvaluationTrace) :
    prov.collectSources value.normalize sources = prov.collectSources value sources := by
  rw [ValueProvenance.collectSources, ValueProvenance.collectSources, isContainer_normalize]

lemma writeFields_map (depth : Nat) (prov : ValueProvenance) (first : Bool)
    (entries : List (String × Json)) (output : JsonOutput) :
    writeFields first (entries.map fun entry =>
      (entry.1, writeJson (depth + 1) entry.2 (prov.child (.property entry.1)))) output =
      writeEntries depth prov first entries output := by
  induction entries generalizing first output with
  | nil => rfl
  | cons entry rest ih =>
    obtain ⟨key, value⟩ := entry
    rw [List.map_cons, writeFields, writeEntries]
    simp only [ih]

mutual

/-- **The writer sorts.**  It writes what a sorted map of the entries holds. -/
lemma writeSorted_eq (depth : Nat) : ∀ (value : Json) (prov : ValueProvenance)
    (output : JsonOutput), value.Distinct →
    writeSorted depth value prov output = writeJson depth value.normalize prov output
  | .null, _, _, _ => rfl
  | .bool _, _, _, _ => rfl
  | .number _, _, _, _ => rfl
  | .string _, _, _, _ => rfl
  | .array items, prov, output, h => by
    have hitems := writeSortedItems_eq depth prov items 0
    have hsourc := collectSources_normalize prov (.array items)
    rw [Json.normalize] at hsourc
    rw [writeSorted, Json.normalize, writeJson, Json.length_normalizeItems, hsourc]
    simp only [fun output => hitems output h]
  | .object entries, prov, output, ⟨hkeys, hents⟩ => by
    have hsourc := collectSources_normalize prov (.object entries)
    have hnodup : ((Json.normalizeEntries entries).map Prod.fst).Nodup := by
      rw [Json.map_fst_normalizeEntries]
      exact hkeys
    have hsort := Object.extend_eq_insertionSort hnodup
    have hlen : (Object.extend [] (Json.normalizeEntries entries)).length = entries.length := by
      rw [hsort, List.length_insertionSort, ← List.length_map Prod.fst,
        Json.map_fst_normalizeEntries, List.length_map]
    rw [Json.normalize] at hsourc
    rw [writeSorted, Json.normalize, writeJson, hlen, hsourc,
      fieldWriters_eq depth prov entries hents, hsort]
    rw [← List.map_insertionSort (r := fun a b : String × Json => a.1 ≤ b.1)]
    · simp only [writeFields_map]
    · exact fun _ _ _ _ => Iff.rfl

lemma writeSortedItems_eq (depth : Nat) (prov : ValueProvenance) :
    ∀ (items : List Json) (index : Nat) (output : JsonOutput), Json.DistinctItems items →
    writeSortedItems depth prov index items output =
      writeItems depth prov index (Json.normalizeItems items) output
  | [], _, _, _ => rfl
  | item :: rest, index, output, ⟨hitem, hrest⟩ => by
    rw [writeSortedItems, Json.normalizeItems, writeItems]
    simp only [fun prov output => writeSorted_eq (depth + 1) item prov output hitem,
      fun output => writeSortedItems_eq depth prov rest (index + 1) output hrest]

lemma fieldWriters_eq (depth : Nat) (prov : ValueProvenance) :
    ∀ (entries : List (String × Json)), Json.DistinctEntries entries →
    fieldWriters depth prov entries = (Json.normalizeEntries entries).map fun entry =>
      (entry.1, writeJson (depth + 1) entry.2 (prov.child (.property entry.1)))
  | [], _ => rfl
  | (key, value) :: rest, ⟨hvalue, hrest⟩ => by
    have hwrite : writeSorted (depth + 1) value (prov.child (.property key)) =
        writeJson (depth + 1) value.normalize (prov.child (.property key)) :=
      funext fun output => writeSorted_eq (depth + 1) value _ output hvalue
    rw [fieldWriters, Json.normalizeEntries, List.map_cons, fieldWriters_eq depth prov rest hrest,
      hwrite]

end

/-! ### The text that is written -/

open Ledger (Ensures)

lemma ensures_append (output text : String) :
    Ensures (append output text) fun result => result.toList = output.toList ++ text.toList :=
  Ensures.of_last fun _ => Ensures.pure String.toList_append

lemma ensures_appendOutput (output : JsonOutput) (text : String) :
    Ensures (output.append text) fun result =>
      result.text.toList = output.text.toList ++ text.toList :=
  (ensures_append output.text text).bind fun _ h => Ensures.pure h

lemma ensures_writeCharacters (chars pending : List Char) (output : String) :
    Ensures (writeCharacters chars pending output) fun result =>
      result.toList = output.toList ++ (pending.reverse ++ chars.flatMap escapedChar) := by
  induction chars generalizing pending output with
  | nil =>
    intro result hresult
    have htext := ensures_append output (String.ofList pending.reverse) result hresult
    rw [htext, String.toList_ofList, List.flatMap_nil, List.append_nil]
  | cons c rest ih =>
    rw [writeCharacters]
    cases hescape : jsonEscape c with
    | none =>
      -- the character joins the run
      intro result hresult
      have hchar : escapedChar c = [c] := by simp [escapedChar, hescape]
      rw [ih (c :: pending) output result hresult, List.reverse_cons, List.flatMap_cons, hchar,
        List.append_assoc]
    | some escape =>
      have hchar : escapedChar c = escape.toList := by
        rw [escapedChar, hescape]
        rfl
      refine (ensures_append output _).bind fun output₁ h₁ =>
        (ensures_append output₁ escape).bind fun output₂ h₂ => ?_
      intro result hresult
      rw [ih [] output₂ result hresult, h₂, h₁, String.toList_ofList, List.flatMap_cons, hchar]
      simp only [List.reverse_nil, List.nil_append, List.append_assoc]

lemma ensures_writeString (value output : String) :
    Ensures (writeString value output) fun result =>
      result.toList = output.toList ++ (renderString value).toList := by
  refine (ensures_append output "\"").bind fun output₁ h₁ =>
    (ensures_writeCharacters value.toList [] output₁).bind fun output₂ h₂ => ?_
  intro result hresult
  rw [ensures_append output₂ "\"" result hresult, h₂, h₁, toList_renderString]
  have hquote : "\"".toList = ['"'] := rfl
  simp only [hquote, List.reverse_nil, List.nil_append, List.append_assoc, List.cons_append]

def itemsText : Bool → List Json → List Char
  | _, [] => []
  | first, item :: rest =>
    (if first then [] else [',']) ++ (item.render.toList ++ itemsText false rest)

lemma itemsText_true (items : List Json) : itemsText true items = (Json.renderItems items).toList := by
  induction items with
  | nil => rfl
  | cons item rest ih =>
    cases rest with
    | nil =>
      rw [itemsText, itemsText, Json.renderItems, List.append_nil]
      rfl
    | cons next rest =>
      rw [toList_renderItems_cons, ← ih]
      rfl

def entriesText : Bool → List (String × Json) → List Char
  | _, [] => []
  | first, (key, value) :: rest =>
    (if first then [] else [',']) ++
      ((renderString key).toList ++ ':' :: (value.render.toList ++ entriesText false rest))

lemma entriesText_true (entries : List (String × Json)) :
    entriesText true entries = (Json.renderEntries entries).toList := by
  induction entries with
  | nil => rfl
  | cons entry rest ih =>
    obtain ⟨key, value⟩ := entry
    cases rest with
    | nil =>
      rw [toList_renderEntries_singleton, entriesText, entriesText, toList_renderString]
      simp
    | cons next rest =>
      rw [toList_renderEntries_cons, ← ih, entriesText, toList_renderString]
      simp [entriesText]

lemma ensures_scalarText_number (number : Number) :
    Ensures (scalarText (.number number)) fun text => text = number.text :=
  Ensures.of_last fun _ => Ensures.pure rfl

mutual

/-- **The text of a value is what `serde_json` prints.** -/
lemma ensures_writeJson (depth : Nat) : ∀ (value : Json) (prov : ValueProvenance)
    (output : JsonOutput), Ensures (writeJson depth value prov output) fun result =>
      result.text.toList = output.text.toList ++ value.render.toList
  | .null, _, _ => Ensures.of_last fun _ => ensures_appendOutput _ "null"
  | .bool value, _, _ => by
    refine Ensures.of_last fun _ => ?_
    intro result hresult
    rw [ensures_appendOutput _ _ result hresult, Json.render]
  | .number number, _, _ => by
    refine Ensures.of_last fun _ => (ensures_scalarText_number number).bind fun text htext => ?_
    intro result hresult
    rw [ensures_appendOutput _ _ result hresult, htext, Json.render]
  | .string text, _, output =>
    Ensures.of_last fun _ => (ensures_writeString text output.text).bind fun _ h => Ensures.pure h
  | .array items, prov, output => by
    refine Ensures.of_last fun _ => Ensures.of_last fun _ =>
      (ensures_appendOutput _ "[").bind fun output₁ h₁ =>
        (ensures_writeItems depth prov 0 items output₁).bind fun output₂ h₂ => ?_
    intro result hresult
    have hmarks : "[".toList = ['['] ∧ "]".toList = [']'] := ⟨rfl, rfl⟩
    rw [ensures_appendOutput output₂ "]" result hresult, h₂, h₁, toList_render_array,
      ← itemsText_true, hmarks.1, hmarks.2]
    simp only [List.append_assoc, List.cons_append, List.nil_append, decide_true]
  | .object entries, prov, output => by
    refine Ensures.of_last fun _ => Ensures.of_last fun _ =>
      (ensures_appendOutput _ "\x7b").bind fun output₁ h₁ =>
        (ensures_writeEntries depth prov true entries output₁).bind fun output₂ h₂ => ?_
    intro result hresult
    have hmarks : "\x7b".toList = ['\x7b'] ∧ "\x7d".toList = ['\x7d'] := ⟨rfl, rfl⟩
    rw [ensures_appendOutput output₂ "\x7d" result hresult, h₂, h₁, toList_render_object,
      ← entriesText_true, hmarks.1, hmarks.2]
    simp only [List.append_assoc, List.cons_append, List.nil_append]

lemma ensures_writeItems (depth : Nat) (prov : ValueProvenance) :
    ∀ (index : Nat) (items : List Json) (output : JsonOutput),
    Ensures (writeItems depth prov index items output) fun result =>
      result.text.toList = output.text.toList ++ itemsText (decide (index = 0)) items
  | _, [], output => Ensures.pure (List.append_nil _).symm
  | index, item :: rest, output => by
    have hitem : ∀ output₁ : JsonOutput, Ensures (do
        let output ← writeJson (depth + 1) item (prov.child (.index index)) output₁
        writeItems depth prov (index + 1) rest output) fun result =>
          result.text.toList =
            output₁.text.toList ++ (item.render.toList ++ itemsText false rest) := by
      intro output₁
      refine (ensures_writeJson (depth + 1) item _ output₁).bind fun output₂ h₂ => ?_
      intro result hresult
      have hfalse : decide (index + 1 = 0) = false := decide_eq_false (Nat.succ_ne_zero _)
      rw [ensures_writeItems depth prov (index + 1) rest output₂ result hresult, h₂, hfalse,
        List.append_assoc]
    rw [writeItems]
    cases index with
    | zero =>
      have hfirst : Ensures (pure output : EvalM JsonOutput) fun result => result = output :=
        Ensures.pure rfl
      exact hfirst.bind fun output₁ h₁ => h₁ ▸ hitem output₁
    | succ index =>
      refine (ensures_appendOutput output ",").bind fun output₁ h₁ => ?_
      intro result hresult
      rw [hitem output₁ result hresult, h₁, List.append_assoc]
      rfl

lemma ensures_writeEntries (depth : Nat) (prov : ValueProvenance) :
    ∀ (first : Bool) (entries : List (String × Json)) (output : JsonOutput),
    Ensures (writeEntries depth prov first entries output) fun result =>
      result.text.toList = output.text.toList ++ entriesText first entries
  | _, [], output => Ensures.pure (List.append_nil _).symm
  | first, (key, value) :: rest, output => by
    have hentry : ∀ output₁ : JsonOutput, Ensures (do
        let output : JsonOutput := { output₁ with text := ← writeString key output₁.text }
        let output ← output.append ":"
        let output ← writeJson (depth + 1) value (prov.child (.property key)) output
        writeEntries depth prov false rest output) fun result =>
          result.text.toList = output₁.text.toList ++
            ((renderString key).toList ++ ':' :: (value.render.toList ++ entriesText false rest)) := by
      intro output₁
      refine (ensures_writeString key output₁.text).bind fun text h₂ =>
        (ensures_appendOutput _ ":").bind fun output₃ h₃ =>
          (ensures_writeJson (depth + 1) value _ output₃).bind fun output₄ h₄ => ?_
      intro result hresult
      have hcolon : ":".toList = [':'] := rfl
      rw [ensures_writeEntries depth prov false rest output₄ result hresult, h₄, h₃, h₂, hcolon]
      simp only [List.append_assoc, List.cons_append, List.nil_append]
    rw [writeEntries]
    cases first with
    | true =>
      have hfirst : Ensures (pure output : EvalM JsonOutput) fun result => result = output :=
        Ensures.pure rfl
      exact hfirst.bind fun output₁ h₁ => h₁ ▸ hentry output₁
    | false =>
      refine (ensures_appendOutput output ",").bind fun output₁ h₁ => ?_
      intro result hresult
      rw [hentry output₁ result hresult, h₁, List.append_assoc]
      rfl

end

/-! ### The reader -/

mutual

/-- `ValueSeed` on the parts of a text: charge each value before it is read, and put the entries
of an object into a map. -/
def readSeed (depth : Nat) (item : Bool) : Json → EvalM Json
  | .array items => do
    step depth
    if item then visitItems 1
    return .array (← readSeedItems (depth + 1) items)
  | .object entries => do
    step depth
    if item then visitItems 1
    return .object (← readSeedEntries (depth + 1) [] entries)
  | value => do
    step depth
    if item then visitItems 1
    return value

@[inherit_doc readSeed]
def readSeedItems (depth : Nat) : List Json → EvalM (List Json)
  | [] => pure []
  | item :: rest => do
    let value ← readSeed depth true item
    let values ← readSeedItems depth rest
    return value :: values

@[inherit_doc readSeed]
def readSeedEntries (depth : Nat) (fields : Object) : List (String × Json) → EvalM Object
  | [] => pure fields
  | (key, item) :: rest => do
    let value ← readSeed depth true item
    readSeedEntries depth (fields.insert key value) rest

end

section Reader

variable {s : EvalState}

def chargeVisit (depth : Nat) (item : Bool) : EvalM Unit := do
  step depth
  if item then visitItems 1

def afterCharge {α : Type} (charged : Except EvaluationError Unit × EvalState)
    (next : EvalState → Except EvaluationError α × EvalState) : Except EvaluationError α × EvalState :=
  match charged with
  | (.ok (), t) => next t
  | (.error e, t) => (.error e, t)

lemma run_map_afterCharge {α β : Type} {run : EvalM α} {value : α}
    {charged : Except EvaluationError Unit × EvalState}
    (h : run.run s = afterCharge charged fun t => (.ok value, t)) (f : α → β) :
    (run >>= fun value => pure (f value)).run s = afterCharge charged fun t => (.ok (f value), t) := by
  rw [Ledger.run_bind, h]
  rcases charged with ⟨e | _, t⟩ <;> rfl

lemma run_charge_bind {α : Type} (depth : Nat) (item : Bool) (next : EvalM α) :
    (do
      step depth
      if item then visitItems 1
      next : EvalM α).run s = afterCharge ((chargeVisit depth item).run s) next.run := by
  rw [chargeVisit, Ledger.run_bind, Ledger.run_bind]
  rcases (step depth).run s with ⟨e | _, t⟩
  · rfl
  · cases item with
    | false => rfl
    | true =>
      show ((visitItems 1) >>= fun _ => next).run t = afterCharge ((visitItems 1).run t) next.run
      rw [Ledger.run_bind]
      rcases (visitItems 1).run t with ⟨e | _, u⟩ <;> rfl

lemma run_chargeVisits_cons (depth : Nat) (visit : JsonVisit) (rest : List JsonVisit) :
    (chargeVisits depth (visit :: rest)).run s =
      afterCharge ((chargeVisit (depth + visit.depth) visit.item).run s) (chargeVisits depth rest).run :=
  run_charge_bind (depth + visit.depth) visit.item (chargeVisits depth rest)

lemma run_chargeVisits_append (depth : Nat) (visits rest : List JsonVisit) :
    (chargeVisits depth (visits ++ rest)).run s =
      afterCharge ((chargeVisits depth visits).run s) (chargeVisits depth rest).run := by
  induction visits generalizing s with
  | nil => rfl
  | cons visit visits ih =>
    rw [List.cons_append, run_chargeVisits_cons, run_chargeVisits_cons]
    rcases (chargeVisit (depth + visit.depth) visit.item).run s with ⟨e | _, t⟩
    · rfl
    · exact ih

lemma run_scalarSeed (base depth : Nat) (item : Bool) (value : Json) (s : EvalState) :
    (do
      step (base + depth)
      if item then visitItems 1
      return value : EvalM Json).run s =
        afterCharge ((chargeVisits base [⟨depth, item⟩]).run s) fun t => (.ok value, t) := by
  rw [run_charge_bind, run_chargeVisits_cons]
  rcases (chargeVisit (base + depth) item).run s with ⟨e | _, t⟩ <;> rfl

mutual

lemma run_readSeed (base : Nat) : ∀ (tree : Json) (depth : Nat) (item : Bool) (s : EvalState),
    (readSeed (base + depth) item tree).run s =
      afterCharge ((chargeVisits base (tree.readVisits depth item)).run s)
        fun t => (.ok tree.normalize, t)
  | .null, depth, item, s => run_scalarSeed base depth item .null s
  | .bool value, depth, item, s => run_scalarSeed base depth item (.bool value) s
  | .number value, depth, item, s => run_scalarSeed base depth item (.number value) s
  | .string value, depth, item, s => run_scalarSeed base depth item (.string value) s
  | .array items, depth, item, s => by
    rw [readSeed, run_charge_bind, Json.readVisits, run_chargeVisits_cons]
    rcases (chargeVisit (base + depth) item).run s with ⟨e | _, t⟩
    · rfl
    · exact run_map_afterCharge (run_readSeedItems base items (depth + 1) t) Json.array
  | .object entries, depth, item, s => by
    rw [readSeed, run_charge_bind, Json.readVisits, run_chargeVisits_cons]
    rcases (chargeVisit (base + depth) item).run s with ⟨e | _, t⟩
    · rfl
    · exact run_map_afterCharge (run_readSeedEntries base entries (depth + 1) [] t) Json.object

lemma run_readSeedItems (base : Nat) : ∀ (items : List Json) (depth : Nat) (s : EvalState),
    (readSeedItems (base + depth) items).run s =
      afterCharge ((chargeVisits base (Json.readVisitsItems depth items)).run s)
        fun t => (.ok (Json.normalizeItems items), t)
  | [], _, _ => rfl
  | item :: rest, depth, s => by
    rw [readSeedItems, Ledger.run_bind, run_readSeed base item depth true s, Json.readVisitsItems,
      run_chargeVisits_append]
    rcases (chargeVisits base (item.readVisits depth true)).run s with ⟨e | _, t⟩
    · rfl
    · exact run_map_afterCharge (run_readSeedItems base rest depth t) (item.normalize :: ·)

lemma run_readSeedEntries (base : Nat) : ∀ (entries : List (String × Json)) (depth : Nat)
    (fields : Object) (s : EvalState), (readSeedEntries (base + depth) fields entries).run s =
      afterCharge ((chargeVisits base (Json.readVisitsEntries depth entries)).run s)
        fun t => (.ok (fields.extend (Json.normalizeEntries entries)), t)
  | [], _, _, _ => rfl
  | (key, item) :: rest, depth, fields, s => by
    rw [readSeedEntries, Ledger.run_bind, run_readSeed base item depth true s, Json.readVisitsEntries,
      run_chargeVisits_append]
    rcases (chargeVisits base (item.readVisits depth true)).run s with ⟨e | _, t⟩
    · rfl
    · exact run_readSeedEntries base rest depth (fields.insert key item.normalize) t

end

end Reader

/-! ### What `serde_json` shows -/

/-- The reading of a text with these parts: what the visitor charges, and what it holds. -/
def JsonReading.ofParts (tree : Json) : JsonReading := ⟨tree.readVisits 0 false, some tree.normalize⟩

/-- What the engine relies on in `serde_json`'s deserializer: of a JSON text it shows the parts,
unless they nest beyond its recursion limit.  `parse` reads its numbers. -/
structure ShowsJson [Platform] (parse : String → Option Number) : Prop where
  shows : ∀ (room : Nat) (text : String) (tree : Json),
    readValue parse (text.toList.length + 1) room text.toList = some (tree, []) →
      if tree.nesting ≤ RECURSION_LIMIT then Platform.readJson text = .ofParts tree
      else (Platform.readJson text).value = none

section RoundTrip

variable [Platform] {parse : String → Option Number} {printed : Number → Prop}

lemma parseJson_eq {text : String} {tree : Json} (depth : Nat)
    (hreading : Platform.readJson text = .ofParts tree) (s : EvalState) :
    (parseJson text depth).run s = (do
      reserveGeneratedBytes text.utf8ByteSize
      match ← attempt (readSeed depth false tree) with
      | .ok value => return value
      | .error _ =>
        if ← EvalM.exhausted then
          Ledger.fail (limitError "JSON parsing exhausted the shared evaluation budget.")
        else Ledger.fail (invalidError "fromJSON requires valid finite JSON.") : EvalM Json).run s := by
  rw [parseJson, hreading, Ledger.run_bind, Ledger.run_bind]
  rcases (reserveGeneratedBytes text.utf8ByteSize).run s with ⟨e | _, t⟩
  · rfl
  · have hseed := run_readSeed depth tree 0 false t
    rw [Nat.add_zero] at hseed
    show (attempt (chargeVisits depth (tree.readVisits 0 false)) >>= _).run t =
      (attempt (readSeed depth false tree) >>= _).run t
    have htry : ∀ {α : Type} (x : EvalM α), (attempt x).run t = (.ok (x.run t).1, (x.run t).2) :=
      fun _ => rfl
    rw [Ledger.run_bind_ok (htry _), Ledger.run_bind_ok (htry _), hseed]
    rcases (chargeVisits depth (tree.readVisits 0 false)).run t with ⟨e | _, u⟩ <;> rfl

lemma ensures_parseJson (hshows : ShowsJson parse) {room : Nat} {text : String} {tree : Json}
    (htext : readValue parse (text.toList.length + 1) room text.toList = some (tree, []))
    (depth : Nat) : Ensures (parseJson text depth) fun value => value = tree.normalize := by
  have hshown := hshows.shows room text tree htext
  refine Ensures.of_last fun _ => Ensures.of_last fun charged => ?_
  have href : Ensures (do
      if ← EvalM.exhausted then
        Ledger.fail (limitError "JSON parsing exhausted the shared evaluation budget.")
      else Ledger.fail (invalidError "fromJSON requires valid finite JSON.") : EvalM Json)
        fun value => value = tree.normalize := by
    refine Ensures.of_last fun spent => ?_
    cases spent with
    | true | false => exact Ledger.Ensures.fail
  split_ifs at hshown with hnest
  · rw [hshown]
    cases charged with
    | ok _ => exact Ensures.pure rfl
    | error _ => exact href
  · rw [hshown]
    cases charged with
    | ok | error => exact href

omit [Platform] in
lemma ensures_ofOwned (value : Json) (deps : EvaluationTrace) :
    Ensures (RuntimeValue.ofOwned value deps) fun result => result.value = some value := by
  rw [RuntimeValue.ofOwned]
  split_ifs
  · exact Ensures.of_last fun _ => Ensures.pure rfl
  · exact Ensures.pure rfl

/-- **`fromJSON` inverts `toJSON`.**  When both complete, from any budgets, the result is the value
that was written; and the writer writes the same text, at the same charges, whatever order the
entries of an object are in. -/
theorem from_json_inverts_to_json (hshows : ShowsJson parse) (hnumbers : ReadsNumbersBack parse printed)
    {value : Json} (hsorted : value.Sorted) (hprinted : value.Numbers printed) :
    (∀ (first encoded decoded : RuntimeValue) (trace trace' : EvaluationTrace) (depth depth' : Nat)
        (s s' : EvalState), first.value = some value →
      ((applyFunction .toJSON [first] trace depth).run s).1 = .ok encoded →
      ((applyFunction .fromJSON [encoded] trace' depth').run s').1 = .ok decoded →
        decoded.value = some value) ∧
    ∀ listing : Json, value.Reordered listing →
      ∀ (depth : Nat) (provenance : ValueProvenance) (output : JsonOutput),
        writeSorted depth listing provenance output = writeJson depth value provenance output := by
  constructor
  · intro first encoded decoded trace trace' depth depth' s s' hfirst hencoded hdecoded
    have htext : encoded.value = some (.string value.render) := by
      have hensures : Ledger.Ensures (applyFunction .toJSON [first] trace depth) fun encoded =>
          encoded.value = some (.string value.render) := by
        rw [applyFunction]
        simp only [List.headD_cons, hfirst, Option.getD_some]
        refine (ensures_writeJson (depth + 1) value _ ⟨"", {}⟩).bind fun output h => ?_
        refine Ledger.Ensures.pure ?_
        have htext : output.text = value.render := String.toList_inj.mp h
        rw [htext]
      exact hensures encoded ⟨s, _, Prod.ext hencoded rfl⟩
    have hread := readValue_render hnumbers value hprinted value.render.toList.length value.nesting []
      (Nat.le_succ _) fun c hc => by cases hc
    rw [List.append_nil, if_pos le_rfl] at hread
    have hensures : Ledger.Ensures (applyFunction .fromJSON [encoded] trace' depth') fun decoded =>
        decoded.value = some value := by
      rw [applyFunction]
      simp only [List.headD_cons, htext, Option.getD_some]
      refine (ensures_parseJson hshows hread (depth' + 1)).bind fun parsed hparsed => ?_
      rw [Json.normalize_of_sorted value hsorted] at hparsed
      refine (ensures_ofOwned parsed trace').bind fun result hresult => ?_
      have hvalue : result.value = some value := hresult.trans (congrArg some hparsed)
      -- the metadata says where the value came from, and leaves it as it is
      cases encoded.metadata.encodedProvenance with
      | some provenance | none => exact Ledger.Ensures.pure hvalue
    exact hensures decoded ⟨s', _, Prod.ext hdecoded rfl⟩
  · intro listing hlisting depth provenance output
    obtain ⟨hdistinct, hnormalize⟩ :=
      hlisting.normalize_eq (Json.distinct_of_sorted value hsorted)
    rw [writeSorted_eq depth listing provenance output hdistinct, hnormalize,
      Json.normalize_of_sorted value hsorted]

end RoundTrip

/-! ### A deserializer of compact text -/

section Room

variable {parse : String → Option Number}

def Roomy {α : Type} (nesting : α → Nat) (read : Nat → Option (α × List Char)) : Prop :=
  ∀ room a rest, read room = some (a, rest) → ∀ room', read room' =
    if nesting a ≤ room' then some (a, rest) else none

namespace Roomy

variable {α β : Type} {nesting : α → Nat}

lemma const {result : Option (α × List Char)}
    (h : ∀ a rest, result = some (a, rest) → nesting a = 0) : Roomy nesting fun _ => result := by
  intro room a rest hread room'
  rw [h a rest hread, if_pos (Nat.zero_le room')]
  exact hread

lemma contained {read : Nat → Option (α × List Char)} (hread : Roomy nesting read) (make : α → Json)
    (hmake : ∀ a, (make a).nesting = nesting a + 1) :
    Roomy Json.nesting fun room =>
      if room = 0 then none else (read (room - 1)).map fun r => (make r.1, r.2) := by
  intro room value rest h room'
  dsimp only at h ⊢
  split_ifs at h
  obtain ⟨⟨a, tail⟩, ha, h⟩ := Option.map_eq_some_iff.mp h
  cases h
  have hnest : (make (a, tail).1).nesting = nesting a + 1 := hmake a
  rw [hread _ a tail ha, hnest]
  by_cases hroom : room' = 0
  · rw [if_pos hroom, if_neg (by omega)]
  · rw [if_neg hroom]
    by_cases hle : nesting a ≤ room' - 1
    · rw [if_pos hle, if_pos (by omega)]
      rfl
    · rw [if_neg hle, if_neg (by omega)]
      rfl

lemma item {first : Nat → Option (Json × List Char)}
    {behind : Json → List Char → Nat → Option (β × List Char)} {nestingAll : β → Nat}
    (hfirst : Roomy Json.nesting first)
    (hbehind : ∀ value tail room out rest, behind value tail room = some (out, rest) →
      ∃ inner, nestingAll out = max value.nesting inner ∧ ∀ room', behind value tail room' =
        if inner ≤ room' then some (out, rest) else none) :
    Roomy nestingAll fun room => first room >>= fun r => behind r.1 r.2 room := by
  intro room out rest h room'
  obtain ⟨⟨value, tail⟩, hvalue, h⟩ := Option.bind_eq_some_iff.mp h
  obtain ⟨inner, hnest, hall⟩ := hbehind value tail room out rest h
  show (first room' >>= fun r => behind r.1 r.2 room') = _
  rw [hfirst _ _ _ hvalue, hnest]
  by_cases hle : value.nesting ≤ room'
  · rw [if_pos hle]
    show behind value tail room' = _
    rw [hall]
    by_cases hinner : inner ≤ room'
    · rw [if_pos hinner, if_pos (max_le hle hinner)]
    · rw [if_neg hinner, if_neg fun hmax => hinner (le_trans (le_max_right _ _) hmax)]
  · rw [if_neg hle, if_neg fun hmax => hle (le_trans (le_max_left _ _) hmax)]
    rfl

end Roomy

lemma readLiteral_nesting {word : String} {literal value : Json} {chars rest : List Char}
    (hliteral : literal.nesting = 0) (h : readLiteral word literal chars = some (value, rest)) :
    value.nesting = 0 := by
  rw [readLiteral] at h
  split_ifs at h
  cases h
  exact hliteral

/-- What `readItems` does behind an item. -/
def readItemsTail (fuel : Nat) (item : Json) (tail : List Char) (room : Nat) :
    Option (List Json × List Char) :=
  match tail with
  | ',' :: rest => (readItems parse fuel room rest).map fun read => (item :: read.1, read.2)
  | ']' :: rest => some ([item], rest)
  | _ => none

/-- What `readEntries` does behind an entry. -/
def readEntriesTail (fuel : Nat) (key : List Char) (item : Json) (tail : List Char) (room : Nat) :
    Option (List (String × Json) × List Char) :=
  match tail with
  | ',' :: rest => (readEntries parse fuel room rest).map fun read =>
      ((String.ofList key, item) :: read.1, read.2)
  | '\x7d' :: rest => some ([(String.ofList key, item)], rest)
  | _ => none

lemma readValue_room (fuel : Nat) :
    (∀ chars, Roomy Json.nesting fun room => readValue parse fuel room chars) ∧
    (∀ chars, Roomy Json.nestingItems fun room => readItems parse fuel room chars) ∧
    ∀ chars, Roomy Json.nestingEntries fun room => readEntries parse fuel room chars := by
  induction fuel with
  | zero =>
    refine ⟨fun chars room value rest h => ?_, fun chars room items rest h => ?_,
      fun chars room entries rest h => ?_⟩
    · simp [readValue] at h
    · simp [readItems] at h
    · simp [readEntries] at h
  | succ fuel ih =>
    obtain ⟨ihValue, ihItems, ihEntries⟩ := ih
    refine ⟨fun chars => ?_, fun chars => ?_, fun chars => ?_⟩
    · cases chars with
      | nil =>
        intro room value rest h
        simp [readValue] at h
      | cons c tail =>
        simp only [readValue]
        by_cases hquote : c = '"'
        · simp only [if_pos hquote]
          refine .const fun value rest h => ?_
          obtain ⟨read, -, h⟩ := Option.map_eq_some_iff.mp h
          cases h
          rfl
        simp only [if_neg hquote]
        by_cases hbrk : c = '['
        · simp only [if_pos hbrk]
          by_cases hempty : tail.head? = some ']'
          · have hread : Roomy Json.nestingItems fun _ => some (([] : List Json), tail.drop 1) :=
              .const fun _ _ h => by cases h; rfl
            simp only [if_pos hempty]
            exact hread.contained .array fun _ => rfl
          · simp only [if_neg hempty]
            exact (ihItems tail).contained .array fun _ => rfl
        simp only [if_neg hbrk]
        by_cases hbrace : c = '\x7b'
        · simp only [if_pos hbrace]
          by_cases hempty : tail.head? = some '\x7d'
          · have hread : Roomy Json.nestingEntries fun _ =>
                some (([] : List (String × Json)), tail.drop 1) :=
              .const fun _ _ h => by cases h; rfl
            simp only [if_pos hempty]
            exact hread.contained .object fun _ => rfl
          · simp only [if_neg hempty]
            exact (ihEntries tail).contained .object fun _ => rfl
        simp only [if_neg hbrace]
        refine .const fun value rest h => ?_
        split_ifs at h
        · exact readLiteral_nesting rfl h
        · exact readLiteral_nesting rfl h
        · exact readLiteral_nesting rfl h
        · obtain ⟨number, -, h⟩ := Option.map_eq_some_iff.mp h
          cases h
          rfl
    · simp only [readItems]
      refine @Roomy.item _ _ (readItemsTail fuel) _ (ihValue chars)
        fun item tail room out rest h => ?_
      unfold readItemsTail at h ⊢
      split at h
      · obtain ⟨⟨others, last⟩, hothers, h⟩ := Option.map_eq_some_iff.mp h
        cases h
        refine ⟨Json.nestingItems others, rfl, fun room' => ?_⟩
        have hall := ihItems _ _ _ _ hothers room'
        dsimp only at hall ⊢
        rw [hall]
        split_ifs <;> rfl
      · cases h
        exact ⟨0, rfl, fun room' => (if_pos (Nat.zero_le room')).symm⟩
      · cases h
    · intro room entries rest h room'
      dsimp only at h ⊢
      obtain ⟨tail, rfl⟩ : ∃ tail, chars = '"' :: tail := by
        unfold readEntries at h
        split at h
        · exact ⟨_, rfl⟩
        · cases h
      rw [readEntries] at h ⊢
      cases hcont : readContent tail with
      | none =>
        rw [hcont] at h
        cases h
      | some content =>
        obtain ⟨key, behind⟩ := content
        rw [hcont] at h
        dsimp only [bind, Option.bind] at h ⊢
        split at h
        · rename_i after
          refine @Roomy.item _ _ (readEntriesTail fuel key) _ (ihValue after)
            (fun item tail room out rest h => ?_) room entries rest h room'
          unfold readEntriesTail at h ⊢
          split at h
          · obtain ⟨⟨others, last⟩, hothers, h⟩ := Option.map_eq_some_iff.mp h
            cases h
            refine ⟨Json.nestingEntries others, rfl, fun room' => ?_⟩
            have hall := ihEntries _ _ _ _ hothers room'
            dsimp only at hall ⊢
            rw [hall]
            split_ifs <;> rfl
          · cases h
            exact ⟨0, rfl, fun room' => (if_pos (Nat.zero_le room')).symm⟩
          · cases h
        · cases h

end Room

lemma compactPlatform_showsJson : @ShowsJson compactPlatform asciiNumber := by
  refine @ShowsJson.mk compactPlatform _ fun room text tree hread => ?_
  have hlimit := (readValue_room (text.toList.length + 1)).1 _ _ _ _ hread RECURSION_LIMIT
  dsimp only at hlimit
  show (if tree.nesting ≤ RECURSION_LIMIT then compactJson text = .ofParts tree
    else (compactJson text).value = none)
  unfold compactJson
  dsimp only
  rw [hlimit]
  by_cases hnest : tree.nesting ≤ RECURSION_LIMIT
  · rw [if_pos hnest, if_pos hnest]
    rfl
  · rw [if_neg hnest, if_neg hnest]

/-- A value with nested containers, escapes, and a count. -/
def nestedNotes : Json :=
  .object [("a\"b", .array [.null, .string "\\\n\x01é", .array []]), ("n", .number (.ofNat 7))]

/-- Whether a value is written, and its text is read, from fresh budgets. -/
def bothComplete (platform : Platform) (value : Json) : Bool :=
  match ((@applyFunction platform .toJSON [.scalar value {}] {} 0).run .initial).1 with
  | .ok encoded => ((@applyFunction platform .fromJSON [encoded] {} 0).run .initial).1.isOk
  | .error _ => false

/-- Nested notes are written and read back. -/
theorem from_json_inverts_to_json_notes :
    ∃ encoded decoded : RuntimeValue,
      ((@applyFunction compactPlatform .toJSON [.scalar nestedNotes {}] {} 0).run .initial).1 =
        .ok encoded ∧
      ((@applyFunction compactPlatform .fromJSON [encoded] {} 0).run .initial).1 = .ok decoded ∧
      decoded.value = some nestedNotes := by
  have hruns : bothComplete compactPlatform nestedNotes = true := by decide +kernel
  have hsorted : nestedNotes.Sorted :=
    ⟨by decide, ⟨trivial, trivial, trivial, trivial⟩, trivial, trivial⟩
  have hprinted : nestedNotes.Numbers PlainNumber :=
    ⟨⟨trivial, trivial, trivial, trivial⟩, plainNumber_ofNat (by decide), trivial⟩
  unfold bothComplete at hruns
  cases hencoded : ((@applyFunction compactPlatform .toJSON [.scalar nestedNotes {}] {} 0).run
      .initial).1 with
  | error _ =>
    rw [hencoded] at hruns
    cases hruns
  | ok encoded =>
    rw [hencoded] at hruns
    dsimp only at hruns
    cases hdecoded : ((@applyFunction compactPlatform .fromJSON [encoded] {} 0).run .initial).1 with
    | error _ =>
      rw [hdecoded] at hruns
      cases hruns
    | ok decoded =>
      have hinverts := (@from_json_inverts_to_json compactPlatform _ _ compactPlatform_showsJson
        asciiNumber_reads _ hsorted hprinted).1
      exact ⟨encoded, decoded, rfl, hdecoded,
        hinverts _ _ _ _ _ _ _ _ _ rfl hencoded hdecoded⟩

end Antiburn
