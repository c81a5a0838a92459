/-
Saved results decode to themselves.

The decoded value of a written record has the fields of the record in key order;
each record is read back from it, passes the checks of its shape, and binds to
the declarations that it was valid for.  Floats are the numbers that they print,
read back exactly.
-/
import Antiburn.Capacity
import Antiburn.SavedResults

namespace Antiburn

/-! ### Decoded values -/

/-- The value that the decoder returns for a written one. -/
def Json.decoded (reread : Number → Number) (json : Json) : Json :=
  (json.shown reread).json.normalize

section Decoded

variable (reread : Number → Number)

lemma Json.decoded_array (items : List Json) :
    (Json.array items).decoded reread = .array (items.map (Json.decoded reread)) := by
  have hitems : Json.normalizeItems (JsonSyntax.jsonItems (Json.shownItems reread items)) =
      items.map (Json.decoded reread) := by
    induction items with
    | nil => rfl
    | cons item rest ih =>
      rw [Json.shownItems, JsonSyntax.jsonItems, Json.normalizeItems, ih]
      rfl
  exact congrArg Json.array hitems

lemma Json.decoded_object (entries : Object) :
    (Json.object entries).decoded reread =
      .object (Object.extend [] (entries.map fun entry => (entry.1, entry.2.decoded reread))) := by
  have hents : Json.normalizeEntries (JsonSyntax.jsonEntries (Json.shownEntries reread entries)) =
      entries.map fun entry => (entry.1, entry.2.decoded reread) := by
    induction entries with
    | nil => rfl
    | cons entry rest ih =>
      obtain ⟨key, item⟩ := entry
      rw [Json.shownEntries, JsonSyntax.jsonEntries, Json.normalizeEntries, ih]
      rfl
  exact congrArg (fun entries => Json.object (Object.extend [] entries)) hents

end Decoded

namespace Object

lemma get?_extend_nodup {extra : Object} (h : (extra.map Prod.fst).Nodup) (entries : Object)
    (key : String) : (entries.extend extra).get? key = (extra.get? key).or (entries.get? key) := by
  induction extra generalizing entries with
  | nil => rfl
  | cons entry rest ih =>
    obtain ⟨name, value⟩ := entry
    obtain ⟨hname, hrest⟩ := List.nodup_cons.mp h
    show ((entries.insert name value).extend rest).get? key = _
    rw [ih hrest, get?_insert, get?_cons]
    by_cases hkey : name = key
    · subst hkey
      have hnone : get? rest name = none := by
        cases hget : get? rest name with
        | none => rfl
        | some value => exact absurd (List.mem_map_of_mem (mem_of_get? hget)) hname
      rw [if_pos rfl, if_pos rfl, hnone]
      rfl
    · rw [if_neg hkey, if_neg hkey]

lemma get?_extend_nil {extra : Object} (h : (extra.map Prod.fst).Nodup) (key : String) :
    get? (extend [] extra) key = extra.get? key := by
  rw [get?_extend_nodup h, get?_nil, Option.or_none]

lemma get?_map (f : Json → Json) (entries : Object) (key : String) :
    get? (entries.map fun entry => (entry.1, f entry.2)) key = (entries.get? key).map f := by
  induction entries with
  | nil => rfl
  | cons entry rest ih =>
    obtain ⟨name, value⟩ := entry
    rw [List.map_cons, get?_cons, get?_cons, ih]
    split_ifs <;> rfl

lemma get?_of_mem {entries : Object} (h : (entries.map Prod.fst).Nodup) {key : String}
    {value : Json} (hmem : (key, value) ∈ entries) : entries.get? key = some value := by
  induction entries with
  | nil => cases hmem
  | cons entry rest ih =>
    obtain ⟨name, first⟩ := entry
    obtain ⟨hname, hrest⟩ := List.nodup_cons.mp h
    rw [get?_cons]
    rcases List.mem_cons.mp hmem with heq | hmem
    · cases heq
      exact if_pos rfl
    · have hne : name ≠ key := by
        rintro rfl
        exact hname (List.mem_map.mpr ⟨_, hmem, rfl⟩)
      rw [if_neg hne, ih hrest hmem]

end Object

/-! ### Reading fields -/

section Fields

variable (reread : Number → Number)

lemma keys_decoded (entries : Object) :
    (entries.map fun entry => (entry.1, entry.2.decoded reread)).map Prod.fst =
      entries.map Prod.fst := by
  rw [List.map_map]
  rfl

lemma structFields_decoded {entries : Object} (h : (entries.map Prod.fst).Nodup) :
    structFields (entries.map Prod.fst) ((Json.object entries).decoded reread) =
      some (entries.map fun entry => entry.2.decoded reread) := by
  have hkeys := keys_decoded reread entries
  have hall : ((Object.extend [] (entries.map fun entry => (entry.1, entry.2.decoded reread))).all
      fun entry => (entries.map Prod.fst).contains entry.1) = true := by
    refine Object.all_keys_extend (p := fun key => (entries.map Prod.fst).contains key)
      (fun entry hentry => ?_) rfl
    rw [List.contains_iff_mem, ← hkeys]
    exact List.mem_map_of_mem hentry
  have hfields : ∀ some' : Object, (∀ entry ∈ some', entry ∈ entries) →
      (some'.map Prod.fst).mapM (Object.get?
        (Object.extend [] (entries.map fun entry => (entry.1, entry.2.decoded reread)))) =
        some (some'.map fun entry => entry.2.decoded reread) := by
    intro some' hsome
    induction some' with
    | nil => rfl
    | cons entry rest ih =>
      have hget : Object.get?
          (Object.extend [] (entries.map fun entry => (entry.1, entry.2.decoded reread))) entry.1 =
            some (entry.2.decoded reread) := by
        rw [Object.get?_extend_nil (hkeys ▸ h), Object.get?_map,
          Object.get?_of_mem h (hsome entry List.mem_cons_self)]
        rfl
      rw [List.map_cons, List.mapM_cons, hget, ih fun other hother =>
        hsome other (List.mem_cons_of_mem _ hother)]
      rfl
  rw [Json.decoded_object, structFields, if_pos hall]
  exact hfields entries fun _ h => h

lemma variant_decoded (tag : String) {others : Object} {names : List String}
    (h : ((("type", Json.string tag) :: others).map Prod.fst).Nodup)
    (hnames : ∀ entry ∈ others, entry.1 ∈ names) (htype : "type" ∉ names) :
    ∃ content, taggedContent ((Json.object (("type", .string tag) :: others)).decoded reread) =
        some (tag, content) ∧
      variantFields names content =
        some (names.map fun name => (Object.get? others name).map (Json.decoded reread)) := by
  have hkeys := keys_decoded reread (("type", Json.string tag) :: others)
  have hget : ∀ key, Object.get? (Object.extend [] ((("type", Json.string tag) :: others).map
      fun entry => (entry.1, entry.2.decoded reread))) key =
        (Object.get? (("type", Json.string tag) :: others) key).map (Json.decoded reread) := by
    intro key
    rw [Object.get?_extend_nil (hkeys ▸ h), Object.get?_map]
  refine ⟨.object (Object.remove (Object.extend [] ((("type", Json.string tag) :: others).map
      fun entry => (entry.1, entry.2.decoded reread))) "type"), ?_, ?_⟩
  · rw [Json.decoded_object, taggedContent, hget]
    rfl
  · have hall : ((Object.remove (Object.extend [] ((("type", Json.string tag) :: others).map
        fun entry => (entry.1, entry.2.decoded reread))) "type").all
          fun entry => names.contains entry.1) = true := by
      have hextend := @Object.all_keys_extend (fun key => key == "type" || names.contains key) []
        ((("type", Json.string tag) :: others).map fun entry => (entry.1, entry.2.decoded reread))
        (fun entry hentry => ?_) rfl
      · rw [List.all_eq_true] at hextend ⊢
        intro entry hentry
        obtain ⟨hmem, hne⟩ := List.mem_filter.mp hentry
        have hor := hextend entry hmem
        rw [Bool.or_eq_true, beq_iff_eq] at hor
        exact hor.resolve_left (bne_iff_ne.mp hne)
      · obtain ⟨other, hother, rfl⟩ := List.mem_map.mp hentry
        rcases List.mem_cons.mp hother with rfl | hother
        · rfl
        · rw [Bool.or_eq_true, List.contains_iff_mem]
          exact .inr (hnames other hother)
    rw [variantFields, if_pos hall, Option.some.injEq]
    refine List.map_congr_left fun name hname => ?_
    have hne : "type" ≠ name := fun heq => htype (heq ▸ hname)
    rw [Object.get?_remove, if_neg hne, hget, Object.get?_cons, if_neg hne]

end Fields

lemma present_decoded {α : Type} (reread : Number → Number) {read : Json → Option α} {json : α → Json} {value : Option α}
    (hvalue : ∀ a, value = some a → read ((json a).decoded reread) = some a) :
    present read ((value.map json).map (Json.decoded reread)) = some value := by
  cases value with
  | none => rfl
  | some a =>
    show (read ((json a).decoded reread)).map some = some (some a)
    rw [hvalue a rfl]
    rfl

/-! ### Reading results back -/

/-- What saving relies on in `serde_json`: it reads machine integers and finite floats back as
the numbers that it printed; `readFloat` is the float of a number. -/
structure SavesNumbers [Platform] (printed : Number → Prop) (reread : Number → Number)
    (readFloat : Number → Platform.F64) : Prop where
  counts : ∀ n < 2 ^ 64, printed (.ofNat n) ∧ reread (.ofNat n) = .ofNat n
  floats : ∀ x, Platform.isFinite x = true →
    ∃ number, Platform.f64Number x = some number ∧ printed number ∧ readFloat (reread number) = x

section Results

variable [Platform]

/-- The record that is saved of an answer. -/
def QuestionResult.saved : QuestionResult → SavedQuestionResult
  | choice result => .choice result.output result.probabilities result.confidence
  | score result => .score result.output result.probabilities result.confidence
  | noul result => .noul result.output

@[inherit_doc QuestionResult.saved]
def NamedAnswer.saved (answer : NamedAnswer) : SavedAnswer := ⟨answer.name, answer.result.saved⟩

@[inherit_doc QuestionResult.saved]
def DecisionResult.saved (result : DecisionResult) : SavedDecision :=
  ⟨result.decision, result.answers.map NamedAnswer.saved, result.attempts⟩

@[inherit_doc QuestionResult.saved]
def EvaluatedAssessment.saved (results : EvaluatedAssessment) : SavedAssessment :=
  ⟨results.version, results.decisions.map DecisionResult.saved, results.attempts⟩

def QuestionResult.floats : QuestionResult → List Platform.F64
  | choice result => (result.probabilities.elim [] fun map => map.toList.map Prod.snd) ++
      result.confidence.toList
  | score result => result.output :: (result.probabilities.getD [] ++ result.confidence.toList)
  | noul result => [result.output]

/-- The answers hold finite floats only, and attempts are one or two. -/
def DecisionResult.Printable (result : DecisionResult) : Prop :=
  (∀ answer ∈ result.answers, ∀ x ∈ answer.result.floats, Platform.isFinite x = true) ∧
    (result.attempts = 1 ∨ result.attempts = 2)

variable {printed : Number → Prop} {reread : Number → Number}
  {readFloat : Number → Platform.F64} (h : SavesNumbers printed reread readFloat)

include h

lemma readF64_decoded {x : Platform.F64} (hx : Platform.isFinite x = true) :
    readF64 readFloat ((floatJson x).decoded reread) = some x := by
  obtain ⟨number, hnumber, -, hread⟩ := h.floats x hx
  rw [floatJson, hnumber]
  show some (readFloat (reread number)) = some x
  rw [hread]

section

variable {values : List Platform.F64} (hvalues : ∀ x ∈ values, Platform.isFinite x = true)
include hvalues

lemma mapM_readF64 :
    ((values.map floatJson).map (Json.decoded reread)).mapM (readF64 readFloat) = some values := by
  induction values with
  | nil => rfl
  | cons x rest ih =>
    rw [List.map_cons, List.map_cons, List.mapM_cons, readF64_decoded h (hvalues x List.mem_cons_self),
      ih fun y hy => hvalues y (List.mem_cons_of_mem _ hy)]
    rfl

lemma readList_decoded :
    readList readFloat ((Json.array (values.map floatJson)).decoded reread) = some values := by
  rw [Json.decoded_array, readList]
  exact mapM_readF64 h hvalues

end

lemma readLabelled_decoded {map : Std.ExtTreeMap String Platform.F64}
    (hvalues : ∀ x ∈ map.toList.map Prod.snd, Platform.isFinite x = true) :
    readLabelled readFloat ((Json.object
      (map.toList.map fun entry => (entry.1, floatJson entry.2))).decoded reread) = some map := by
  have hsorted : (((map.toList.map fun entry => (entry.1, floatJson entry.2)).map
      fun entry => (entry.1, entry.2.decoded reread)).map Prod.fst).Pairwise (· < ·) := by
    rw [List.map_map, List.map_map, List.pairwise_map]
    exact map.ordered_keys_toList.imp fun hlt => compareOfLessAndEq_eq_lt.mp hlt
  have hread : ∀ entries : List (String × Platform.F64),
      (∀ x ∈ entries.map Prod.snd, Platform.isFinite x = true) →
      ((entries.map fun entry => (entry.1, floatJson entry.2)).map
        fun entry => (entry.1, entry.2.decoded reread)).mapM
          (fun entry : String × Json => (readF64 readFloat entry.2).map (entry.1, ·)) =
        some entries := by
    intro entries hents
    induction entries with
    | nil => rfl
    | cons entry rest ih =>
      rw [List.map_cons, List.map_cons, List.mapM_cons,
        readF64_decoded h (hents _ List.mem_cons_self),
        ih fun x hx => hents x (List.mem_cons_of_mem _ hx)]
      rfl
  rw [Json.decoded_object, Object.extend_of_sorted hsorted, readLabelled]
  show (List.mapM _ _ >>= _) = some map
  rw [List.nil_append, hread _ hvalues]
  exact congrArg some Std.ExtTreeMap.ofList_toList_self

omit h in
lemma detailed_fields {α : Type} (output : Json) (json : α → Json) (probabilities : Option α)
    (confidence : Option Platform.F64) :
    ("type" :: ([("output", output)] ++ optionalField "probabilities" json probabilities ++
      optionalField "confidence" floatJson confidence).map Prod.fst).Nodup ∧
    (∀ entry ∈ [("output", output)] ++ optionalField "probabilities" json probabilities ++
      optionalField "confidence" floatJson confidence,
      entry.1 ∈ ["output", "probabilities", "confidence"]) ∧
    ["output", "probabilities", "confidence"].map (fun name => (Object.get?
      ([("output", output)] ++ optionalField "probabilities" json probabilities ++
        optionalField "confidence" floatJson confidence) name).map (Json.decoded reread)) =
      [some (output.decoded reread), (probabilities.map json).map (Json.decoded reread),
        (confidence.map floatJson).map (Json.decoded reread)] := by
  cases probabilities with
  | none | some p =>
    cases confidence with
    | none | some => simp [optionalField, Object.get?]

lemma SavedQuestionResult.fromValue_decoded {result : QuestionResult}
    (hfloats : ∀ x ∈ result.floats, Platform.isFinite x = true) :
    SavedQuestionResult.fromValue readFloat (result.json.decoded reread) = some result.saved := by
  cases result with
  | choice result =>
    obtain ⟨output, probabilities, confidence⟩ := result
    let labelled := fun map : Std.ExtTreeMap String Platform.F64 =>
      Json.object (map.toList.map fun entry => (entry.1, floatJson entry.2))
    obtain ⟨hkeys, hnames, hfields⟩ :=
      @detailed_fields _ reread _ (.string output) labelled probabilities confidence
    obtain ⟨content, htag, hcont⟩ := variant_decoded reread "choice" hkeys hnames (by decide)
    have hprobs : present (readLabelled readFloat)
        ((probabilities.map labelled).map (Json.decoded reread)) = some probabilities := by
      refine present_decoded reread fun map hmap => readLabelled_decoded h fun x hx => ?_
      subst hmap
      exact hfloats x (List.mem_append_left _ hx)
    have hconf : present (readF64 readFloat)
        ((confidence.map floatJson).map (Json.decoded reread)) = some confidence := by
      refine present_decoded reread fun x hx => readF64_decoded h (hfloats x ?_)
      subst hx
      exact List.mem_append_right _ List.mem_cons_self
    rw [hfields] at hcont
    have hanswer : taggedContent (Json.decoded reread
        (QuestionResult.choice ⟨output, probabilities, confidence⟩).json) = some ("choice", content) := htag
    unfold fromValue
    rw [hanswer]
    show (variantFields ["output", "probabilities", "confidence"] content >>= _) = _
    rw [hcont]
    show (present (readLabelled readFloat) _ >>= _) = _
    rw [hprobs]
    show (present (readF64 readFloat) _ >>= _) = _
    rw [hconf]
    rfl
  | score result =>
    obtain ⟨output, probabilities, confidence⟩ := result
    let listed := fun values : List Platform.F64 => Json.array (values.map floatJson)
    obtain ⟨hkeys, hnames, hfields⟩ :=
      @detailed_fields _ reread _ (floatJson output) listed probabilities confidence
    obtain ⟨content, htag, hcont⟩ := variant_decoded reread "score" hkeys hnames (by decide)
    have houtput := readF64_decoded h (hfloats output List.mem_cons_self)
    have hprobs : present (readList readFloat)
        ((probabilities.map listed).map (Json.decoded reread)) = some probabilities := by
      refine present_decoded reread fun values hvalues => readList_decoded h fun x hx => ?_
      subst hvalues
      exact hfloats x (List.mem_cons_of_mem _ (List.mem_append_left _ hx))
    have hconf : present (readF64 readFloat)
        ((confidence.map floatJson).map (Json.decoded reread)) = some confidence := by
      refine present_decoded reread fun x hx => readF64_decoded h (hfloats x ?_)
      subst hx
      exact List.mem_cons_of_mem _ (List.mem_append_right _ List.mem_cons_self)
    rw [hfields] at hcont
    have hanswer : taggedContent (Json.decoded reread
        (QuestionResult.score ⟨output, probabilities, confidence⟩).json) = some ("score", content) := htag
    unfold fromValue
    rw [hanswer]
    show (variantFields ["output", "probabilities", "confidence"] content >>= _) = _
    rw [hcont]
    show (readF64 readFloat _ >>= _) = _
    rw [houtput]
    show (present (readList readFloat) _ >>= _) = _
    rw [hprobs]
    show (present (readF64 readFloat) _ >>= _) = _
    rw [hconf]
    rfl
  | noul result =>
    have houtput := readF64_decoded h (hfloats result.output List.mem_cons_self)
    obtain ⟨content, htag, hcont⟩ := @variant_decoded reread "noul"
      [("output", floatJson result.output)] ["output"] (by simp) (by simp) (by decide)
    have hanswer : taggedContent (Json.decoded reread (QuestionResult.noul result).json) =
        some ("noul", content) := htag
    unfold fromValue
    rw [hanswer]
    show (variantFields ["output"] content >>= _) = _
    rw [hcont]
    show (readF64 readFloat _).map SavedQuestionResult.noul = _
    rw [houtput]
    rfl

omit [Platform] h in
lemma mapM_decoded {α β : Type} {read : Json → Option β} {json : α → Json} {saved : α → β}
    {l : List α} (hread : ∀ a ∈ l, read ((json a).decoded reread) = some (saved a)) :
    (((Json.array (l.map json)).decoded reread).asArray >>= fun items => items.mapM read) =
      some (l.map saved) := by
  rw [Json.decoded_array]
  show ((l.map json).map (Json.decoded reread)).mapM read = _
  induction l with
  | nil => rfl
  | cons a rest ih =>
    rw [List.map_cons, List.map_cons, List.mapM_cons, hread a List.mem_cons_self,
      ih fun b hb => hread b (List.mem_cons_of_mem _ hb)]
    rfl

lemma readUnsigned_decoded {bound n : Nat} (hn : n < bound) (hbound : bound ≤ 2 ^ 64) :
    readUnsigned bound ((Json.number (.ofNat n)).decoded reread) = some n := by
  show (reread (.ofNat n)).asU64.filter (· < bound) = some n
  rw [(h.counts n (hn.trans_le hbound)).2, JsonCodec.asU64_ofNat]
  exact if_pos (decide_eq_true hn)

lemma SavedAnswer.fromValue_decoded {answer : NamedAnswer}
    (hfloats : ∀ x ∈ answer.result.floats, Platform.isFinite x = true) :
    SavedAnswer.fromValue readFloat (answer.json.decoded reread) = some answer.saved := by
  have hfields : structFields ["name", "result"] (answer.json.decoded reread) = _ :=
    @structFields_decoded reread [("name", .string answer.name), ("result", answer.result.json)]
      (by simp)
  unfold fromValue
  rw [hfields]
  show (SavedQuestionResult.fromValue readFloat _ >>= _) = _
  rw [SavedQuestionResult.fromValue_decoded h hfloats]
  rfl

lemma SavedDecision.fromValue_decoded {result : DecisionResult} (hprint : result.Printable) :
    SavedDecision.fromValue readFloat (result.json.decoded reread) = some result.saved := by
  have hfields : structFields ["decision", "answers", "attempts"] (result.json.decoded reread) = _ :=
    @structFields_decoded reread [("decision", .string result.decision),
      ("answers", .array (result.answers.map NamedAnswer.json)),
      ("attempts", .number (.ofNat result.attempts))] (by simp)
  have htries : result.attempts < 2 ^ 8 := by
    rcases hprint.2 with hn | hn <;> rw [hn] <;> decide
  have hans := @mapM_decoded reread _ _ _ _ _ _ fun answer hanswer =>
    SavedAnswer.fromValue_decoded h (hprint.1 answer hanswer)
  obtain ⟨items, hitems, hread⟩ := Option.bind_eq_some_iff.mp hans
  have hcount := readUnsigned_decoded h htries (by decide)
  unfold fromValue
  rw [hfields]
  have hname : ((Json.string result.decision).decoded reread).asStr = some result.decision := rfl
  simp only [List.map_cons, List.map_nil, Option.bind_eq_bind, Option.bind_some, hname, hitems, hread,
    hcount]
  rfl

/-- **What is written of an assessment reads as the record of it.** -/
lemma SavedAssessment.fromValue_decoded {results : EvaluatedAssessment}
    (hver : results.version < 2 ^ 8) (htries : results.attempts < 2 ^ 64)
    (hprint : ∀ result ∈ results.decisions, result.Printable) :
    SavedAssessment.fromValue readFloat (results.json.decoded reread) = some results.saved := by
  have hfields : structFields ["version", "decisions", "attempts"] (results.json.decoded reread) = _ :=
    @structFields_decoded reread [("version", .number (.ofNat results.version)),
      ("decisions", .array (results.decisions.map DecisionResult.json)),
      ("attempts", .number (.ofNat results.attempts))] (by simp)
  have hdecs := @mapM_decoded reread _ _ _ _ _ _ fun result hresult =>
    SavedDecision.fromValue_decoded h (hprint result hresult)
  obtain ⟨items, hitems, hread⟩ := Option.bind_eq_some_iff.mp hdecs
  have hcounts := readUnsigned_decoded h hver (by decide)
  have htotal := readUnsigned_decoded h htries (Nat.le_refl _)
  unfold fromValue
  rw [hfields]
  simp only [List.map_cons, List.map_nil, Option.bind_eq_bind, Option.bind_some, hcounts, hitems,
    hread, htotal]
  rfl

end Results

end Antiburn
