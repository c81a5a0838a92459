/-
The space that results can take, reserved before the first dispatch.

`measureResultCapacity` measures a document of placeholders: each declared
decision with all optional details, the longest labels and numbers wider than
any number that prints.  `Json.Within` compares two documents part by part; a
document within another one takes no more bytes, nodes or depth, so what fits
is decided by the larger one.
-/
import Antiburn.ProgressRuns
import Antiburn.Lib.Saturating
import Antiburn.Lib.Table

namespace Antiburn

/-! ### One document within another -/

namespace Json

def entryBytes (entry : String × Json) : Nat :=
  writtenBytes (stringWrites entry.1) + 1 + entry.2.byteSize

structure Within (value space : Json) : Prop where
  bytes : value.byteSize ≤ space.byteSize
  nodes : ∀ depth, (value.visits depth).length ≤ (space.visits depth).length
  depths : ∀ depth, ∀ d ∈ value.visits depth, ∃ d' ∈ space.visits depth, d ≤ d'

/-- The items of an array take no more than the space of others. -/
structure ItemsWithin (items space : List Json) : Prop where
  bytes : (items.map fun item => item.byteSize + 1).sum ≤ (space.map fun item => item.byteSize + 1).sum
  nodes : ∀ depth, (visitsItems depth items).length ≤ (visitsItems depth space).length
  depths : ∀ depth, ∀ d ∈ visitsItems depth items, ∃ d' ∈ visitsItems depth space, d ≤ d'

/-- The entries of an object take no more than the space of others. -/
structure EntriesWithin (entries space : List (String × Json)) : Prop where
  bytes : (entries.map fun entry => entryBytes entry + 1).sum ≤
    (space.map fun entry => entryBytes entry + 1).sum
  nodes : ∀ depth, (visitsEntries depth entries).length ≤ (visitsEntries depth space).length
  depths : ∀ depth, ∀ d ∈ visitsEntries depth entries, ∃ d' ∈ visitsEntries depth space, d ≤ d'

variable {value space : Json} {items spaces : List Json} {entries slots : List (String × Json)}

lemma writtenBytes_writesEntries_false (entries : List (String × Json)) :
    writtenBytes (writesEntries false entries) =
      (entries.map fun entry => entryBytes entry + 1).sum := by
  induction entries with
  | nil => rfl
  | cons entry rest ih =>
    have hmark : ",".utf8ByteSize = 1 ∧ ":".utf8ByteSize = 1 := ⟨rfl, rfl⟩
    simp only [writesEntries, Bool.false_eq_true, if_false, writtenBytes_append, writtenBytes_cons,
      writtenBytes_nil, hmark, ih, List.map_cons, List.sum_cons, entryBytes, byteSize]
    omega

lemma writtenBytes_writesEntries_true (entries : List (String × Json)) :
    writtenBytes (writesEntries true entries) =
      (entries.map fun entry => entryBytes entry + 1).sum - 1 := by
  cases entries with
  | nil => rfl
  | cons entry rest =>
    have hmark : ":".utf8ByteSize = 1 := rfl
    simp only [writesEntries, if_true, writtenBytes_append, writtenBytes_cons, writtenBytes_nil,
      hmark, writtenBytes_writesEntries_false, List.map_cons, List.sum_cons, entryBytes, byteSize]
    omega

lemma byteSize_array (items : List Json) :
    (array items).byteSize = 2 + ((items.map fun item => item.byteSize + 1).sum - 1) := by
  have hmark : "[".utf8ByteSize = 1 ∧ "]".utf8ByteSize = 1 := ⟨rfl, rfl⟩
  simp only [byteSize, writes, writtenBytes_cons, writtenBytes_append, writtenBytes_nil, hmark,
    writtenBytes_writesItems_true]
  omega

lemma byteSize_object (entries : List (String × Json)) :
    (object entries).byteSize = 2 + ((entries.map fun entry => entryBytes entry + 1).sum - 1) := by
  have hmark : "\x7b".utf8ByteSize = 1 ∧ "\x7d".utf8ByteSize = 1 := ⟨rfl, rfl⟩
  simp only [byteSize, writes, writtenBytes_cons, writtenBytes_append, writtenBytes_nil, hmark,
    writtenBytes_writesEntries_true]
  omega

lemma visitsEntries_eq (depth : Nat) (entries : List (String × Json)) :
    visitsEntries depth entries = visitsItems depth (entries.map Prod.snd) := by
  induction entries with
  | nil => rfl
  | cons entry rest ih => rw [visitsEntries, ih, List.map_cons, visitsItems]

lemma Within.refl (value : Json) : value.Within value :=
  ⟨le_rfl, fun _ => le_rfl, fun _ d hd => ⟨d, hd, le_rfl⟩⟩

lemma Within.of_scalar (hvalue : ∀ depth, value.visits depth = [depth])
    (hspace : ∀ depth, space.visits depth = [depth]) (hbytes : value.byteSize ≤ space.byteSize) :
    value.Within space := by
  refine ⟨hbytes, fun depth => by rw [hvalue, hspace], fun depth d hd => ?_⟩
  rw [hvalue, List.mem_singleton] at hd
  exact ⟨depth, by rw [hspace, List.mem_singleton], hd.le⟩

lemma depths_cons {depth : Nat} {depths depths' : List Nat}
    (h : ∀ d ∈ depths, ∃ d' ∈ depths', d ≤ d') :
    ∀ d ∈ depth :: depths, ∃ d' ∈ depth :: depths', d ≤ d' := by
  intro d hd
  rcases List.mem_cons.mp hd with rfl | hd
  · exact ⟨d, List.mem_cons_self, le_rfl⟩
  · obtain ⟨d', hd', hle⟩ := h d hd
    exact ⟨d', List.mem_cons_of_mem _ hd', hle⟩

lemma Within.array (h : ItemsWithin items spaces) : (array items).Within (array spaces) := by
  refine ⟨?_, fun depth => Nat.succ_le_succ (h.nodes (depth + 1)),
    fun depth => depths_cons (h.depths (depth + 1))⟩
  rw [byteSize_array, byteSize_array]
  have := h.bytes
  omega

lemma Within.object (h : EntriesWithin entries slots) : (object entries).Within (object slots) := by
  refine ⟨?_, fun depth => Nat.succ_le_succ (h.nodes (depth + 1)),
    fun depth => depths_cons (h.depths (depth + 1))⟩
  rw [byteSize_object, byteSize_object]
  have := h.bytes
  omega

/-- **What is within a document that fits, fits.** -/
lemma Within.fits {limits : JsonLimits} (h : value.Within space) (hfits : space.Fits limits) :
    value.Fits limits := by
  refine ⟨fun d hd => ?_, (h.nodes 1).trans hfits.nodes, h.bytes.trans hfits.bytes⟩
  obtain ⟨d', hd', hle⟩ := h.depths 1 d hd
  exact hle.trans (hfits.depth d' hd')

/-! ### Lists of parts -/

namespace EntriesWithin

lemma nil (slots : List (String × Json)) : EntriesWithin [] slots :=
  ⟨Nat.zero_le _, fun _ => Nat.zero_le _, fun _ _ hd => by cases hd⟩

lemma cons {key : String} (hvalue : value.Within space) (h : EntriesWithin entries slots) :
    EntriesWithin ((key, value) :: entries) ((key, space) :: slots) := by
  refine ⟨?_, fun depth => ?_, fun depth d hd => ?_⟩
  · have hbytes := h.bytes
    have hentry := hvalue.bytes
    simp only [List.map_cons, List.sum_cons, entryBytes]
    simp only [entryBytes] at hbytes
    omega
  · rw [visitsEntries, visitsEntries, List.length_append, List.length_append]
    exact Nat.add_le_add (hvalue.nodes depth) (h.nodes depth)
  · rw [visitsEntries] at hd ⊢
    rcases List.mem_append.mp hd with hd | hd
    · obtain ⟨d', hd', hle⟩ := hvalue.depths depth d hd
      exact ⟨d', List.mem_append_left _ hd', hle⟩
    · obtain ⟨d', hd', hle⟩ := h.depths depth d hd
      exact ⟨d', List.mem_append_right _ hd', hle⟩

lemma skip (slot : String × Json) (h : EntriesWithin entries slots) :
    EntriesWithin entries (slot :: slots) := by
  refine ⟨?_, fun depth => ?_, fun depth d hd => ?_⟩
  · rw [List.map_cons, List.sum_cons]
    exact h.bytes.trans (Nat.le_add_left _ _)
  · rw [visitsEntries, List.length_append]
    exact (h.nodes depth).trans (Nat.le_add_left _ _)
  · obtain ⟨d', hd', hle⟩ := h.depths depth d hd
    exact ⟨d', List.mem_append_right _ hd', hle⟩

lemma perm {slots' : List (String × Json)} (h : EntriesWithin entries slots)
    (hperm : slots.Perm slots') : EntriesWithin entries slots' := by
  refine ⟨?_, fun depth => ?_, fun depth d hd => ?_⟩
  · rw [← (hperm.map _).sum_eq]
    exact h.bytes
  · have hnodes := h.nodes depth
    rw [visitsEntries_eq depth slots, length_visitsItems] at hnodes
    rw [visitsEntries_eq depth slots', length_visitsItems, ← ((hperm.map _).map _).sum_eq]
    exact hnodes
  · obtain ⟨d', hd', hle⟩ := h.depths depth d hd
    refine ⟨d', ?_, hle⟩
    rw [visitsEntries_eq, mem_visitsItems] at hd' ⊢
    obtain ⟨item, hitem, hd'⟩ := hd'
    exact ⟨item, (hperm.map Prod.snd).mem_iff.mp hitem, hd'⟩

lemma of_map {ι : Type} (l : List ι) (key : ι → String) {f g : ι → Json}
    (h : ∀ i ∈ l, (f i).Within (g i)) :
    EntriesWithin (l.map fun i => (key i, f i)) (l.map fun i => (key i, g i)) := by
  induction l with
  | nil => exact nil []
  | cons i rest ih =>
    exact cons (h i List.mem_cons_self) (ih fun j hj => h j (List.mem_cons_of_mem i hj))

end EntriesWithin

namespace ItemsWithin

lemma of_forall₂ (h : List.Forall₂ Within items spaces) : ItemsWithin items spaces := by
  induction h with
  | nil => exact ⟨le_rfl, fun _ => le_rfl, fun _ _ hd => by cases hd⟩
  | @cons value space items spaces hvalue _ ih =>
    refine ⟨?_, fun depth => ?_, fun depth d hd => ?_⟩
    · have hbytes := ih.bytes
      have hitem := hvalue.bytes
      simp only [List.map_cons, List.sum_cons]
      omega
    · rw [visitsItems, visitsItems, List.length_append, List.length_append]
      exact Nat.add_le_add (hvalue.nodes depth) (ih.nodes depth)
    · rw [visitsItems] at hd ⊢
      rcases List.mem_append.mp hd with hd | hd
      · obtain ⟨d', hd', hle⟩ := hvalue.depths depth d hd
        exact ⟨d', List.mem_append_left _ hd', hle⟩
      · obtain ⟨d', hd', hle⟩ := ih.depths depth d hd
        exact ⟨d', List.mem_append_right _ hd', hle⟩

lemma subperm {spaces' : List Json} (h : ItemsWithin items spaces)
    (hsubp : spaces.Subperm spaces') : ItemsWithin items spaces' := by
  obtain ⟨middle, hperm, hsubl⟩ := hsubp
  have hsum : ∀ size : Json → Nat, (spaces.map size).sum ≤ (spaces'.map size).sum := by
    intro size
    rw [← (hperm.map size).sum_eq]
    exact (hsubl.map size).sum_le_sum fun _ _ => Nat.zero_le _
  refine ⟨h.bytes.trans (hsum _), fun depth => ?_, fun depth d hd => ?_⟩
  · have hnodes := h.nodes depth
    rw [length_visitsItems depth spaces] at hnodes
    rw [length_visitsItems depth spaces']
    exact hnodes.trans (hsum _)
  · obtain ⟨d', hd', hle⟩ := h.depths depth d hd
    refine ⟨d', ?_, hle⟩
    rw [mem_visitsItems] at hd' ⊢
    obtain ⟨item, hitem, hd'⟩ := hd'
    exact ⟨item, hsubl.subset (hperm.mem_iff.mpr hitem), hd'⟩

end ItemsWithin

end Json

/-! ### The reservation -/

/-- A quoted placeholder that is wider than any finite number. -/
def NUMBER_RESERVATION : String := "00000000000000000000000000000000"

/-- The longest label, the last of several: `max_by_key`. -/
def longestLabel (criteria : List (String × String)) : Option String :=
  criteria.foldl (fun longest entry =>
    match longest with
    | none => some entry.1
    | some label =>
      if label.utf8ByteSize ≤ entry.1.utf8ByteSize then some entry.1 else some label) none

/-- `QuestionCapacity`.  Criteria are not empty once their requirements validate; the source
refuses a choice without any. -/
def Question.capacity : Question → Json
  | choice _ criteria => .object [("type", .string "choice"),
      ("output", .string ((longestLabel criteria).getD "")),
      ("probabilities", .object (criteria.map fun entry => (entry.1, .string NUMBER_RESERVATION))),
      ("confidence", .string NUMBER_RESERVATION)]
  | score _ criteria => .object [("type", .string "score"), ("output", .string NUMBER_RESERVATION),
      ("probabilities", .array (criteria.map fun _ => .string NUMBER_RESERVATION)),
      ("confidence", .string NUMBER_RESERVATION)]
  | noul _ => .object [("type", .string "noul"), ("output", .string NUMBER_RESERVATION)]

/-- `AnswerCapacity`. -/
def NamedQuestion.capacity (question : NamedQuestion) : Json :=
  .object [("name", .string question.name), ("result", question.question.capacity)]

/-- `DecisionCapacity`. -/
def DecisionBlock.capacity (block : DecisionBlock) : Json :=
  .object [("decision", .string block.name),
    ("answers", .array (block.outputs.map NamedQuestion.capacity)),
    ("attempts", .number (.ofNat 2))]

/-- `AssessmentCapacity`. -/
def assessmentCapacity (decls : List DecisionBlock) : Json :=
  .object [("version", .number (.ofNat RESULT_VERSION)),
    ("decisions", .array (decls.map DecisionBlock.capacity)),
    ("attempts", .number (.ofNat U64_MAX))]

section Reservation

variable [Platform]

/-- Reserves the complete typed result shape before dispatch. -/
def measureResultCapacity (decls : List DecisionBlock)
    (reqs : List QuestionRequirements) : Except ResultError JsonMeasurement := do
  orResultError (validateRequirements decls reqs)
  orSizeError (measureJson (assessmentCapacity decls) RESULT_LIMITS)

/-! ### Answers that validate -/

omit [Platform] in
lemma orResultError_ok {α : Type} {result : Except DecisionContractError α} {value : α}
    (h : orResultError result = .ok value) : result = .ok value :=
  Except.mapError_ok_iff.mp h

variable {decl : DecisionBlock} {result : DecisionResult} {question : Question}

lemma ChoiceResult.of_validate {result : ChoiceResult}
    (h : result.validate question = .ok ()) :
    ∃ text criteria, question = .choice text criteria ∧
      question.validate = .ok () ∧ result.output ∈ criteria.map Prod.fst ∧
      ∀ probabilities, result.probabilities = some probabilities →
        probabilities.size = criteria.length ∧
          ∀ label ∈ criteria.map Prod.fst, label ∈ probabilities := by
  obtain ⟨_, hvalid, h⟩ := Except.of_bind_ok h
  cases question with
  | score | noul => cases h
  | choice text criteria =>
    obtain ⟨hout, h⟩ := Except.of_refuse_ok h
    rw [Bool.not_eq_true', Bool.not_eq_false, List.any_eq_true] at hout
    refine ⟨text, criteria, rfl, orResultError_ok hvalid, ?_, fun probabilities hsome => ?_⟩
    · obtain ⟨entry, hentry, heq⟩ := hout
      exact beq_iff_eq.mp heq ▸ List.mem_map_of_mem hentry
    · rw [hsome] at h
      obtain ⟨hlabels, -⟩ := Except.of_refuse_ok h
      simp only [Bool.or_eq_true, not_or, bne_iff_ne, ne_eq, not_not, List.any_eq_true,
        not_exists, not_and, Bool.not_eq_true', Bool.not_eq_false] at hlabels
      refine ⟨hlabels.1, fun label hlabel => ?_⟩
      obtain ⟨entry, hentry, rfl⟩ := List.mem_map.mp hlabel
      exact Std.ExtTreeMap.contains_iff_mem.mp (hlabels.2 entry hentry)

lemma ScoreResult.of_validate {result : ScoreResult}
    (h : result.validate question = .ok ()) :
    ∃ text criteria, question = .score text criteria ∧
      ∀ probabilities, result.probabilities = some probabilities →
        probabilities.length = criteria.length := by
  obtain ⟨_, -, h⟩ := Except.of_bind_ok h
  cases question with
  | choice | noul => cases h
  | score text criteria =>
    obtain ⟨-, h⟩ := Except.of_refuse_ok h
    refine ⟨text, criteria, rfl, fun probabilities hsome => ?_⟩
    rw [hsome] at h
    obtain ⟨hlen, -⟩ := Except.of_refuse_ok h
    simpa using hlen

omit [Platform] in
lemma find?_question {outputs : List NamedQuestion}
    (hnames : (outputs.map NamedQuestion.name).Nodup) {question : NamedQuestion}
    (h : question ∈ outputs) :
    outputs.find? (fun other => other.name == question.name) = some question := by
  have hlookup := Table.lookup_of_mem hnames h
  simpa only [Table.lookup, beq_eq_decide] using hlookup

lemma DecisionResult.answers_of_validate
    {reqs : List QuestionRequirements}
    (h : result.validateForDeclaration decl reqs = .ok ()) :
    (decl.outputs.map NamedQuestion.name).Nodup ∧
      List.Forall₂ (fun (answer : NamedAnswer) (output : NamedQuestion) =>
        answer.name = output.name ∧
          ∃ required, answer.result.validate output.question required = .ok ())
        result.answers decl.outputs := by
  unfold validateForDeclaration at h
  obtain ⟨-, h⟩ := Except.of_refuse_ok h
  obtain ⟨_, hans, h⟩ := Except.of_bind_ok h
  obtain ⟨horder, -⟩ := Except.of_refuse_ok h
  obtain ⟨_, hdecl, hans⟩ := Except.of_bind_ok hans
  obtain ⟨-, hans⟩ := Except.of_refuse_ok hans
  obtain ⟨hlen, hans⟩ := Except.of_refuse_ok hans
  obtain ⟨-, hans⟩ := Except.of_refuse_ok hans
  obtain ⟨_, -, hans⟩ := Except.of_bind_ok hans
  have hnames : (decl.outputs.map NamedQuestion.name).Nodup := by
    have hblock := orResultError_ok hdecl
    unfold DecisionBlock.validate at hblock
    obtain ⟨-, hblock⟩ := Except.of_refuse_ok hblock
    obtain ⟨-, hblock⟩ := Except.of_refuse_ok hblock
    exact (forUnique_ok_iff.mp hblock).2.1
  refine ⟨hnames, List.forall₂_iff_get.mpr ⟨by simpa using hlen, fun i hi hi' => ?_⟩⟩
  have hname : (result.answers.get ⟨i, hi⟩).name = (decl.outputs.get ⟨i, hi'⟩).name := by
    by_contra hne
    refine horder (List.any_eq_true.mpr ⟨(result.answers.get ⟨i, hi⟩,
      decl.outputs.get ⟨i, hi'⟩), ?_, bne_iff_ne.mpr hne⟩)
    exact List.mem_iff_getElem.mpr ⟨i, by simp [hi, hi'], by simp⟩
  refine ⟨hname, ?_⟩
  have hfind : decl.outputs.find? (fun output =>
      output.name == (result.answers.get ⟨i, hi⟩).name) =
        some (decl.outputs.get ⟨i, hi'⟩) := by
    rw [hname]
    exact find?_question hnames (List.get_mem _ _)
  have hanswer := ((forUnique_ok_iff.mp hans).1 _ (List.get_mem result.answers ⟨i, hi⟩)).2
  rw [hfind] at hanswer
  dsimp only at hanswer
  split at hanswer
  · cases hanswer
  · exact ⟨_, hanswer⟩

/-! ### Widths -/

omit [Platform] in
lemma jsonEscape_identifier {c : Char} (h : (c.isLower || c.isDigit || c == '_') = true) :
    jsonEscape c = none := by
  have hge : 48 ≤ c.toNat := by
    simp only [Bool.or_eq_true, Char.isLower, Char.isDigit, Bool.and_eq_true, decide_eq_true_eq,
      beq_iff_eq] at h
    rcases h with (⟨hge, -⟩ | ⟨hge, -⟩) | rfl
    · exact le_trans (by decide) (UInt32.le_iff_toNat_le.mp hge)
    · exact UInt32.le_iff_toNat_le.mp hge
    · decide
  have hne : ∀ d : Char, (d.isLower || d.isDigit || d == '_') = false → (c == d) = false := by
    intro d hd
    rw [beq_eq_false_iff_ne]
    rintro rfl
    rw [hd] at h
    cases h
  unfold jsonEscape
  rw [hne '"' (by decide), hne '\\' (by decide), hne '\n' (by decide), hne '\r' (by decide),
    hne '\t' (by decide), hne '\x08' (by decide), hne '\x0c' (by decide)]
  simp only [Bool.false_eq_true, if_false]
  rw [if_neg (by omega)]

omit [Platform] in
lemma writtenBytes_contentWrites {chars : List Char} (h : ∀ c ∈ chars, jsonEscape c = none)
    (fragment : String) : Json.writtenBytes (Json.contentWrites fragment chars) =
      fragment.utf8ByteSize + (String.ofList chars).utf8ByteSize := by
  induction chars generalizing fragment with
  | nil =>
    rw [Json.contentWrites]
    split_ifs with hempty
    · rw [String.isEmpty_iff.mp hempty]
      rfl
    · simp
  | cons c rest ih =>
    have hescape := h c List.mem_cons_self
    have hrest := ih (fun d hd => h d (List.mem_cons_of_mem c hd)) (fragment.push c)
    rw [Json.contentWrites, hescape]
    show Json.writtenBytes (Json.contentWrites (fragment.push c) rest) = _
    rw [hrest, String.utf8ByteSize_push, String.ofList_cons, String.utf8ByteSize_append]
    simp
    omega

omit [Platform] in
lemma writtenBytes_identifier {value : String} (h : isIdentifier value = true) :
    Json.writtenBytes (Json.stringWrites value) = value.utf8ByteSize + 2 := by
  have hplain : ∀ c ∈ value.toList, jsonEscape c = none := by
    unfold isIdentifier at h
    cases hchars : value.toList with
    | nil => intro c hc; cases hc
    | cons first rest =>
      rw [hchars] at h
      simp only [Bool.and_eq_true, List.all_eq_true] at h
      intro c hc
      rcases List.mem_cons.mp hc with rfl | hc
      · exact jsonEscape_identifier (by rw [h.1]; rfl)
      · exact jsonEscape_identifier (h.2 c hc)
  have hmark : "\"".utf8ByteSize = 1 := rfl
  rw [Json.stringWrites, Json.writtenBytes_cons, Json.writtenBytes_append,
    writtenBytes_contentWrites hplain, String.ofList_toList, Json.writtenBytes_cons,
    Json.writtenBytes_nil, hmark]
  simp
  omega

omit [Platform] in
lemma longestLabel_spec (criteria : List (String × String)) {label : String}
    (h : label ∈ criteria.map Prod.fst) :
    ∃ longest ∈ criteria.map Prod.fst, longestLabel criteria = some longest ∧
      label.utf8ByteSize ≤ longest.utf8ByteSize := by
  induction criteria using List.reverseRecOn generalizing label with
  | nil => cases h
  | append_singleton front entry ih =>
    have hstep : longestLabel (front ++ [entry]) =
        match longestLabel front with
        | none => some entry.1
        | some longest =>
          if longest.utf8ByteSize ≤ entry.1.utf8ByteSize then some entry.1 else some longest := by
      rw [longestLabel, List.foldl_append]
      rfl
    rw [hstep]
    rw [List.map_append, List.mem_append] at h
    have hlast : entry.1 ∈ (front ++ [entry]).map Prod.fst := by simp
    cases hfront : longestLabel front with
    | none =>
      rcases h with h | h
      · obtain ⟨longest, -, hsome, -⟩ := ih h
        rw [hfront] at hsome
        cases hsome
      · rw [List.map_singleton, List.mem_singleton] at h
        exact ⟨entry.1, hlast, rfl, by rw [h]⟩
    | some longest =>
      have hmem : longest ∈ front.map Prod.fst := by
        cases front with
        | nil => cases hfront
        | cons first rest =>
          obtain ⟨other, hother, hsome, -⟩ := @ih first.1 (by simp)
          rw [hfront, Option.some.injEq] at hsome
          exact hsome ▸ hother
      have hmem' : longest ∈ (front ++ [entry]).map Prod.fst := by
        rw [List.map_append]
        exact List.mem_append_left _ hmem
      have hle : label.utf8ByteSize ≤ longest.utf8ByteSize ∨ label = entry.1 := by
        rcases h with h | h
        · obtain ⟨other, -, hsome, hle⟩ := ih h
          rw [hfront, Option.some.injEq] at hsome
          exact .inl (hsome ▸ hle)
        · rw [List.map_singleton, List.mem_singleton] at h
          exact .inr h
      dsimp only
      split_ifs with hlonger
      · refine ⟨entry.1, hlast, rfl, ?_⟩
        rcases hle with hle | rfl
        · exact hle.trans hlonger
        · exact le_rfl
      · refine ⟨longest, hmem', rfl, ?_⟩
        rcases hle with hle | rfl
        · exact hle
        · omega

/-! ### Results within their reservation -/

/-- A finite number prints in no more bytes than the placeholder has. -/
def NumbersFit : Prop :=
  ∀ value number, Platform.f64Number value = some number → number.text.utf8ByteSize ≤ 34

omit [Platform] in
lemma byteSize_reservation : (Json.string NUMBER_RESERVATION).byteSize = 34 := by
  decide

lemma floatJson_within (h : NumbersFit) (value : Platform.F64) :
    (floatJson value).Within (.string NUMBER_RESERVATION) := by
  unfold floatJson
  cases hnumber : Platform.f64Number value with
  | none => exact .of_scalar (fun _ => rfl) (fun _ => rfl) (by decide)
  | some number =>
    refine .of_scalar (fun _ => rfl) (fun _ => rfl) ?_
    rw [byteSize_reservation]
    exact h value number hnumber

omit [Platform] in
lemma identifier_within {value space : String} (hvalue : isIdentifier value = true)
    (hspace : isIdentifier space = true) (h : value.utf8ByteSize ≤ space.utf8ByteSize) :
    (Json.string value).Within (.string space) := by
  refine .of_scalar (fun _ => rfl) (fun _ => rfl) ?_
  show Json.writtenBytes (Json.stringWrites value) ≤ Json.writtenBytes (Json.stringWrites space)
  rw [writtenBytes_identifier hvalue, writtenBytes_identifier hspace]
  omega

omit [Platform] in
lemma optionalField_within {α : Type} {name : String} {json : α → Json} {value : Option α}
    {space : Json} {slots : List (String × Json)} {entries : List (String × Json)}
    (hvalue : ∀ a, value = some a → (json a).Within space)
    (h : Json.EntriesWithin entries slots) :
    Json.EntriesWithin (optionalField name json value ++ entries) ((name, space) :: slots) := by
  cases value with
  | none => exact h.skip _
  | some a => exact h.cons (hvalue a rfl)

lemma Question.labels_of_validate {text : String} {criteria : List (String × String)}
    (h : (Question.choice text criteria).validate = .ok ()) :
    (criteria.map Prod.fst).Nodup ∧ ∀ label ∈ criteria.map Prod.fst, isIdentifier label = true := by
  unfold validate at h
  obtain ⟨hcrit, -⟩ := Except.of_refuse_ok h
  rw [Bool.not_eq_true, Bool.or_eq_false_iff, Bool.or_eq_false_iff] at hcrit
  obtain ⟨⟨-, hlabels⟩, hnodup⟩ := hcrit
  refine ⟨by simpa using hnodup, fun label hlabel => ?_⟩
  obtain ⟨entry, hentry, rfl⟩ := List.mem_map.mp hlabel
  have hvalid := List.any_eq_false.mp hlabels entry hentry
  rw [Bool.not_eq_true, Bool.or_eq_false_iff, Bool.not_eq_false'] at hvalid
  exact hvalid.1

lemma labels_perm {criteria : List (String × String)}
    {probabilities : Std.ExtTreeMap String Platform.F64}
    (hnodup : (criteria.map Prod.fst).Nodup) (hsize : probabilities.size = criteria.length)
    (hlabels : ∀ label ∈ criteria.map Prod.fst, label ∈ probabilities) :
    (probabilities.toList.map Prod.fst).Perm (criteria.map Prod.fst) := by
  have hsubset : criteria.map Prod.fst ⊆ probabilities.toList.map Prod.fst := by
    intro label hlabel
    rw [Std.ExtTreeMap.map_fst_toList_eq_keys]
    exact Std.ExtTreeMap.mem_keys.mpr (hlabels label hlabel)
  have hlen : (probabilities.toList.map Prod.fst).length ≤ (criteria.map Prod.fst).length := by
    rw [List.length_map, List.length_map, Std.ExtTreeMap.length_toList, hsize]
  exact ((List.subperm_of_subset hnodup hsubset).perm_of_length_le hlen).symm

/-- **An answer that validates is within the reservation of its question.** -/
lemma QuestionResult.json_within (hwidth : NumbersFit) {result : QuestionResult}
    {required : QuestionRequirements}
    (h : result.validate question required = .ok ()) : result.json.Within question.capacity := by
  unfold validate at h
  cases result with
  | choice result =>
    cases question with
    | score | noul => cases h
    | choice text criteria =>
      obtain ⟨_, hresult, -⟩ := Except.of_bind_ok h
      obtain ⟨_, _, heq, hquestion, hout, hprobs⟩ := ChoiceResult.of_validate hresult
      cases heq
      obtain ⟨hnodup, hids⟩ := Question.labels_of_validate hquestion
      obtain ⟨longest, hlongest, hlabel, hle⟩ := longestLabel_spec criteria hout
      refine .object ?_
      simp only [List.cons_append, List.nil_append]
      refine .cons (.refl _) (.cons ?_ (optionalField_within (fun probabilities hsome => ?_) ?_))
      · rw [hlabel]
        exact identifier_within (hids _ hout) (hids _ hlongest) hle
      · obtain ⟨hsize, hlabels⟩ := hprobs probabilities hsome
        have hperm := (labels_perm hnodup hsize hlabels).map
          fun label => (label, Json.string NUMBER_RESERVATION)
        rw [List.map_map, List.map_map] at hperm
        exact .object ((Json.EntriesWithin.of_map probabilities.toList Prod.fst
          fun entry _ => floatJson_within hwidth entry.2).perm hperm)
      · have hlast := @optionalField_within _ "confidence" _ result.confidence _ _ _
          (fun value _ => floatJson_within hwidth value) (.nil [])
        rwa [List.append_nil] at hlast
  | score result =>
    cases question with
    | choice | noul => cases h
    | score text criteria =>
      obtain ⟨_, hresult, -⟩ := Except.of_bind_ok h
      obtain ⟨_, _, heq, hprobs⟩ := ScoreResult.of_validate hresult
      cases heq
      refine .object ?_
      simp only [List.cons_append, List.nil_append]
      refine .cons (.refl _) (.cons (floatJson_within hwidth _)
        (optionalField_within (fun probabilities hsome => ?_) ?_))
      · have hlen := hprobs probabilities hsome
        refine .array (.of_forall₂ (List.forall₂_iff_get.mpr ⟨by simpa using hlen, ?_⟩))
        intro i hi hi'
        rw [List.get_eq_getElem, List.get_eq_getElem, List.getElem_map, List.getElem_map]
        exact floatJson_within hwidth _
      · have hlast := @optionalField_within _ "confidence" _ result.confidence _ _ _
          (fun value _ => floatJson_within hwidth value) (.nil [])
        rwa [List.append_nil] at hlast
  | noul result =>
    cases question with
    | choice | score => cases h
    | noul text =>
      exact .object (.cons (.refl _) (.cons (floatJson_within hwidth _) (.nil [])))

omit [Platform] in
lemma count_within {n m : Nat} (h : n ≤ m) :
    (Json.number (.ofNat n)).Within (.number (.ofNat m)) :=
  .of_scalar (fun _ => rfl) (fun _ => rfl) (countBytes_mono h)

lemma DecisionResult.json_within (hwidth : NumbersFit)
    {reqs : List QuestionRequirements}
    (h : result.validateForDeclaration decl reqs = .ok ()) :
    result.json.Within decl.capacity := by
  obtain ⟨hdec, hattempts⟩ := of_validateForDeclaration h
  obtain ⟨-, hans⟩ := answers_of_validate h
  have hitems : List.Forall₂ Json.Within (result.answers.map NamedAnswer.json)
      (decl.outputs.map NamedQuestion.capacity) := by
    rw [List.forall₂_map_left_iff, List.forall₂_map_right_iff]
    refine hans.imp fun answer output hanswer => ?_
    obtain ⟨hname, required, hresult⟩ := hanswer
    unfold NamedAnswer.json NamedQuestion.capacity
    rw [hname]
    exact .object (.cons (.refl _) (.cons (QuestionResult.json_within hwidth hresult) (.nil [])))
  unfold json DecisionBlock.capacity
  rw [hdec]
  refine .object (.cons (.refl _) (.cons (.array (.of_forall₂ hitems)) (.cons ?_ (.nil []))))
  exact count_within (by omega)

variable {decls : List DecisionBlock} {reqs : List QuestionRequirements}
  {results : List DecisionResult}

lemma results_within (hwidth : NumbersFit)
    (hnames : (decls.map DecisionBlock.name).Nodup)
    (hvalid : ∀ result ∈ results, ∃ decl ∈ decls,
      result.validateForDeclaration decl reqs = .ok ())
    (hunique : (results.map DecisionResult.decision).Nodup) {attempts : Nat}
    (hattempts : attempts ≤ U64_MAX) :
    (resultDocument results attempts).Within (assessmentCapacity decls) := by
  let space (name : String) : Json :=
    (decls.find? fun decl => decl.name == name).elim .null
      DecisionBlock.capacity
  have hspaces : (decls.map DecisionBlock.name).map space =
      decls.map DecisionBlock.capacity := by
    rw [List.map_map]
    refine List.map_congr_left fun decl hmem => ?_
    show Option.elim _ _ _ = _
    rw [find?_declaration hnames hmem]
    rfl
  have hsubset : results.map DecisionResult.decision ⊆ decls.map DecisionBlock.name := by
    intro name hname
    obtain ⟨result, hresult, rfl⟩ := List.mem_map.mp hname
    obtain ⟨decl, hmem, h⟩ := hvalid result hresult
    rw [(DecisionResult.of_validateForDeclaration h).1]
    exact List.mem_map_of_mem hmem
  have hitems : List.Forall₂ Json.Within (results.map DecisionResult.json)
      ((results.map DecisionResult.decision).map space) := by
    rw [List.map_map, List.forall₂_map_left_iff, List.forall₂_map_right_iff, List.forall₂_same]
    intro result hresult
    obtain ⟨decl, hmem, h⟩ := hvalid result hresult
    show result.json.Within (Option.elim _ _ _)
    rw [(DecisionResult.of_validateForDeclaration h).1, find?_declaration hnames hmem]
    exact DecisionResult.json_within hwidth h
  obtain ⟨names, hperm, hsubl⟩ := List.subperm_of_subset hunique hsubset
  have hsubp : ((results.map DecisionResult.decision).map space).Subperm
      (decls.map DecisionBlock.capacity) :=
    ⟨names.map space, hperm.map space, hspaces ▸ hsubl.map space⟩
  exact .object (.cons (.refl _) (.cons (.array ((Json.ItemsWithin.of_forall₂ hitems).subperm
    hsubp)) (.cons (count_within hattempts) (.nil []))))

lemma validateDeclared_ok
    (hnames : (decls.map DecisionBlock.name).Nodup) (hmem : decl ∈ decls)
    (h : result.validateForDeclaration decl reqs = .ok ()) :
    validateDeclared decls reqs result = .ok () := by
  rw [validateDeclared, (DecisionResult.of_validateForDeclaration h).1,
    find?_declaration hnames hmem]
  exact h

/-- **What is reserved before the first dispatch is enough**: results that validate, for
distinct declared decisions and in any order, meet no limit of bytes, nodes or depth when
the next one is measured, when saved progress is, or when the assessment is made; the
assessment is then refused only for a decision without a result. -/
theorem results_fit_reserved_capacity (hwidth : NumbersFit) {measurement : JsonMeasurement}
    (hcapacity : measureResultCapacity decls reqs = .ok measurement)
    (hvalid : ∀ result ∈ results, ∃ decl ∈ decls,
      result.validateForDeclaration decl reqs = .ok ())
    (hunique : (results.map DecisionResult.decision).Nodup) :
    (∀ earlier next, results = earlier ++ [next] →
      (measureDecisionResultsWithNext earlier next).isOk = true) ∧
    (∀ attempts ≤ U64_MAX,
      (measureJson (resultDocument results attempts) RESULT_LIMITS).isOk = true) ∧
    (results.length = decls.length →
      (EvaluatedAssessment.new decls reqs results).isOk = true) ∧
    (results.length ≠ decls.length →
      EvaluatedAssessment.new decls reqs results =
        .error ⟨"Results must match the exact declared decision set."⟩) := by
  obtain ⟨_, hrequirements, hmeasure⟩ := Except.of_bind_ok hcapacity
  have hspace := (measureJson_isOk_iff (by decide) (assessmentCapacity decls)).mp
    (Except.isOk_iff.mpr ⟨_, Except.mapError_ok_iff.mp hmeasure⟩)
  have hnames := (validateDeclarations_of_validateRequirements
    (orResultError_ok hrequirements)).1
  have hfits : ∀ attempts ≤ U64_MAX, FitsResultLimits results attempts := fun attempts hle =>
    (results_within hwidth hnames hvalid hunique hle).fits hspace
  have hattempts : ∀ result ∈ results, result.attempts ≤ 2 := by
    intro result hresult
    obtain ⟨decl, -, h⟩ := hvalid result hresult
    have := (DecisionResult.of_validateForDeclaration h).2
    omega
  have hsum : (results.map DecisionResult.attempts).sum < 2 ^ 32 :=
    (hfits 0 (Nat.zero_le _)).sum_lt hattempts
  have hu64 : (2 : Nat) ^ 32 ≤ U64_MAX := by decide
  refine ⟨fun earlier next hsplit => ?_, fun attempts hle => ?_, fun hlength => ?_,
    fun hlength => ?_⟩
  · have hall := hfits (results.map DecisionResult.attempts).sum (by omega)
    rw [hsplit, List.map_append, List.sum_append] at hall hsum
    simp only [List.map_cons, List.map_nil, List.sum_cons, List.sum_nil, Nat.add_zero] at hall hsum
    refine measureDecisionResultsWithNext_isOk (fun result hresult heq => ?_) (by omega) hall
    rw [hsplit, List.map_append, List.map_singleton] at hunique
    have hdisjoint := (List.nodup_append.mp hunique).2.2
    exact hdisjoint _ (List.mem_map_of_mem hresult) _ (List.mem_singleton_self _) heq
  · exact (measureJson_resultDocument _ _).mpr (hfits attempts hle)
  · have hchecks : forUnique DecisionResult.decision
        ⟨"Decision results must be unique."⟩ (fun _ => .ok ())
        (validateDeclared decls reqs) [] results = .ok () := by
      rw [forUnique_ok_iff]
      refine ⟨fun result hresult => ⟨rfl, ?_⟩, hunique, fun _ _ h => by cases h⟩
      obtain ⟨decl, hmem, h⟩ := hvalid result hresult
      exact validateDeclared_ok hnames hmem h
    have htotal := totalAttempts_eq results (by omega)
    have hordered := (hfits _ (Nat.le_of_lt (hsum.trans_le hu64))).perm
      (List.mergeSort_perm results fun a b =>
        decide (declaredIndex decls a.decision ≤ declaredIndex decls b.decision)).symm
    have hmeasured := (measureJson_resultDocument _ _).mpr hordered
    rw [EvaluatedAssessment.new, hrequirements]
    show Except.isOk (if results.length ≠ decls.length then _ else _) = true
    rw [if_neg (not_not.mpr hlength), hchecks, htotal]
    show Except.isOk ((discard (orSizeError (measureJson _ RESULT_LIMITS)) : Except _ Unit).bind _) =
      true
    rw [orSizeError, Except.discard_ok_iff.mpr ((Except.isOk_mapError _ _).trans hmeasured)]
    rfl
  · rw [EvaluatedAssessment.new, hrequirements]
    show (if results.length ≠ decls.length then _ else _) = _
    rw [if_pos hlength]
    rfl

end Reservation

def wholeNumber (x : Rat) : Option Number :=
  if x.den = 1 ∧ 0 ≤ x ∧ x.num.toNat < 10 ^ 16 then some ⟨toString x.num.toNat ++ ".0"⟩ else none

@[reducible] def wholePlatform : Platform :=
  { asciiPlatform with
    isFinite := fun x => (wholeNumber x).isSome
    f64Number := wholeNumber }

lemma wholePlatform_numbersFit : @NumbersFit wholePlatform := by
  intro value number hnumber
  change wholeNumber value = some number at hnumber
  unfold wholeNumber at hnumber
  split_ifs at hnumber with hvalue
  cases hnumber
  have hdigits := countBytes_mono hvalue.2.2.le
  have hmaximum : countBytes (10 ^ 16) = 17 := by decide
  have hpoint : ".0".utf8ByteSize = 2 := rfl
  rw [String.utf8ByteSize_append, hpoint]
  unfold countBytes at hdigits hmaximum
  omega

def urgentAnswer : @DecisionResult wholePlatform :=
  letI := wholePlatform
  ⟨"triage", [⟨"urgent", .noul ⟨(1 : Rat)⟩⟩], 2⟩

theorem urgentAnswer_fits_reserved_capacity :
    letI := wholePlatform
    (measureResultCapacity [triage] [triageRequirements]).isOk = true ∧
      (EvaluatedAssessment.new [triage] [triageRequirements] [urgentAnswer]).isOk = true := by
  let platform := wholePlatform
  have hcapacity : (measureResultCapacity [triage] [triageRequirements]).isOk = true := by
    decide
  have hanswer : urgentAnswer.validateForDeclaration triage [triageRequirements] = .ok () := by
    decide +kernel
  have hvalid : ∀ result ∈ [urgentAnswer], ∃ decl ∈ [triage],
      result.validateForDeclaration decl [triageRequirements] = .ok () := by
    intro result hresult
    rw [List.mem_singleton.mp hresult]
    exact ⟨triage, List.mem_singleton_self _, hanswer⟩
  obtain ⟨measurement, hmeasurement⟩ := Except.isOk_iff.mp hcapacity
  exact ⟨hcapacity, (results_fit_reserved_capacity wholePlatform_numbersFit hmeasurement hvalid
    (List.nodup_singleton _)).2.2.1 rfl⟩

end Antiburn
