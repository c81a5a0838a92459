/-
What fitting changes, and that the report says all of it.

Each target has a location that no other target touches, so a reduction is a
replacement at that location and every other target still finds its own value.
`fitInput_faithful` reads the report back as the list of replacements.
-/
import Antiburn.Fitting
import Antiburn.Lib.Table

namespace Antiburn

/-! ### Cutting text -/

lemma utf8ByteSize_ofList_cons (c : Char) (rest : List Char) :
    (String.ofList (c :: rest)).utf8ByteSize = c.utf8Size + (String.ofList rest).utf8ByteSize := by
  have hcons : String.ofList (c :: rest) = String.singleton c ++ String.ofList rest := by
    rw [← String.toList_inj]
    simp
  rw [hcons, String.utf8ByteSize_append, String.utf8ByteSize_singleton]

lemma splitBytes_eq_some {text before after : List Char} {n : Nat}
    (h : splitBytes text n = some (before, after)) :
    text = before ++ after ∧ (String.ofList before).utf8ByteSize = n := by
  induction text generalizing n before with
  | nil =>
    cases n with
    | zero => cases h; exact ⟨rfl, rfl⟩
    | succ n => cases h
  | cons c rest ih =>
    cases n with
    | zero => cases h; exact ⟨rfl, rfl⟩
    | succ n =>
      rw [splitBytes] at h
      split_ifs at h with hle
      rw [Option.map_eq_some_iff] at h
      obtain ⟨⟨before', after'⟩, hrest, h⟩ := h
      cases h
      obtain ⟨htext, hsize⟩ := ih hrest
      refine ⟨by rw [htext]; rfl, ?_⟩
      rw [utf8ByteSize_ofList_cons, hsize]
      omega

lemma splitBytes_append (before after : List Char) :
    splitBytes (before ++ after) (String.ofList before).utf8ByteSize = some (before, after) := by
  induction before with
  | nil =>
    show splitBytes after 0 = _
    rw [splitBytes]
  | cons c rest ih =>
    have hpos := c.utf8Size_pos
    rw [utf8ByteSize_ofList_cons, List.cons_append]
    obtain ⟨n, hn⟩ : ∃ n, c.utf8Size + (String.ofList rest).utf8ByteSize = n + 1 :=
      ⟨_, (Nat.succ_pred_eq_of_pos (by omega)).symm⟩
    have hrest : n + 1 - c.utf8Size = (String.ofList rest).utf8ByteSize := by omega
    rw [hn, splitBytes, if_pos (by omega), hrest, ih]
    rfl

lemma isCharBoundary_iff {text : String} {n : Nat} :
    isCharBoundary text n = true ↔
      ∃ before after, text.toList = before ++ after ∧ (String.ofList before).utf8ByteSize = n := by
  rw [isCharBoundary, Option.isSome_iff_exists]
  constructor
  · rintro ⟨⟨before, after⟩, h⟩
    exact ⟨before, after, splitBytes_eq_some h⟩
  · rintro ⟨before, after, htext, rfl⟩
    exact ⟨_, by rw [htext, splitBytes_append]⟩

lemma headBoundary_spec (text : String) (fuel head : Nat)
    (h : head + fuel = text.utf8ByteSize) :
    isCharBoundary text (headBoundary text fuel head) = true ∧
      head ≤ headBoundary text fuel head := by
  induction fuel generalizing head with
  | zero =>
    have hend : isCharBoundary text text.utf8ByteSize = true := by
      rw [isCharBoundary_iff]
      exact ⟨text.toList, [], (List.append_nil _).symm, by rw [String.ofList_toList]⟩
    have hhead : head = text.utf8ByteSize := h
    subst hhead
    exact ⟨hend, Nat.le_refl _⟩
  | succ fuel ih =>
    rw [headBoundary]
    split_ifs with hbound
    · exact ⟨hbound, Nat.le_refl _⟩
    · have hnext := ih (head + 1) (by omega)
      exact ⟨hnext.1, Nat.le_trans (Nat.le_succ _) hnext.2⟩

lemma tailBoundary_spec (text : String) (tail : Nat) :
    isCharBoundary text (tailBoundary text tail) = true ∧ tailBoundary text tail ≤ tail := by
  induction tail with
  | zero =>
    refine ⟨?_, Nat.le_refl _⟩
    rw [isCharBoundary_iff]
    exact ⟨[], text.toList, rfl, rfl⟩
  | succ tail ih =>
    rw [tailBoundary]
    split_ifs with hbound
    · exact ⟨hbound, Nat.le_refl _⟩
    · exact ⟨ih.1, Nat.le_trans ih.2 (Nat.le_succ _)⟩

lemma exists_middle {a r b s : List Char} (h : a ++ r = b ++ s)
    (hle : (String.ofList a).utf8ByteSize ≤ (String.ofList b).utf8ByteSize) :
    ∃ middle, b = a ++ middle := by
  rcases List.append_eq_append_iff.mp h with ⟨middle, hb, -⟩ | ⟨middle, ha, -⟩
  · exact ⟨middle, hb⟩
  · -- the longer prefix has no bytes of its own
    have hempty : middle = [] := by
      cases middle with
      | nil => rfl
      | cons c rest =>
        rw [ha, String.ofList_append, String.utf8ByteSize_append, utf8ByteSize_ofList_cons] at hle
        have hpos := c.utf8Size_pos
        omega
    subst hempty
    exact ⟨[], by rw [ha, List.append_nil, List.append_nil]⟩

lemma cutText_of_boundary {text : String} {head tail : Nat}
    (hhead : isCharBoundary text head = true) (htail : isCharBoundary text tail = true)
    (hle : head ≤ tail) :
    ∃ start omitted rest, cutText text head tail = some (start, omitted, rest) ∧
      text = start ++ omitted ++ rest ∧ start.utf8ByteSize = head ∧
        start.utf8ByteSize + omitted.utf8ByteSize = tail := by
  rw [isCharBoundary_iff] at hhead htail
  obtain ⟨start, after, htext, rfl⟩ := hhead
  obtain ⟨before, rest, htext', rfl⟩ := htail
  obtain ⟨omitted, rfl⟩ := exists_middle (htext.symm.trans htext') hle
  refine ⟨String.ofList start, String.ofList omitted, String.ofList rest, ?_, ?_, rfl, ?_⟩
  · rw [cutText, htext', splitBytes_append]
    show (splitBytes (start ++ omitted) _).bind _ = _
    rw [splitBytes_append]
    rfl
  · rw [← String.toList_inj, htext']
    simp
  · rw [String.ofList_append, String.utf8ByteSize_append]

/-! ### One reduction -/

/-- How the value at a target relates to the value it had in the input. -/
inductive Aligned (target : FitTarget) (before after : Json) : Prop
  /-- Nothing was removed. -/
  | same (hsame : after = before) (hcount : target.strategy.count before = some target.originalCount)
      (hretained : target.retainedCount = target.originalCount)
      (htext : ∀ text, target.originalText = some text → before = .string text)
  /-- The oldest records were removed. -/
  | recent {removed kept : List Json} (hstrategy : target.strategy = .recent)
      (hbefore : before = .array (removed ++ kept)) (hafter : after = .array kept)
      (hremoved : removed ≠ []) (hkept : kept ≠ [])
      (horiginal : target.originalCount = (removed ++ kept).length)
      (hretained : target.retainedCount = kept.length)
  /-- The middle of the text was removed. -/
  | truncate {start omitted rest : String} (hstrategy : target.strategy = .truncate)
      (hbefore : before = .string (start ++ omitted ++ rest))
      (hafter : after = .string (start ++ OMISSION_MARKER ++ rest))
      (htext : target.originalText = some (start ++ omitted ++ rest))
      (homitted : target.retainedCount < target.originalCount)
      (horiginal : target.originalCount = (start ++ omitted ++ rest).utf8ByteSize)
      (hretained : target.retainedCount = start.utf8ByteSize + rest.utf8ByteSize)
      (hminimum : MINIMUM_TEXT_BYTES ≤ target.retainedCount)

def FitTarget.Reduced (target : FitTarget) : Prop := target.retainedCount < target.originalCount

structure FitTarget.SameTarget (target target' : FitTarget) : Prop where
  pointer : target'.pointer = target.pointer
  path : target'.path = target.path
  strategy : target'.strategy = target.strategy
  originalCount : target'.originalCount = target.originalCount

/-- **A turn.**  It finds its target and replaces the value there, or leaves the input alone. -/
inductive TurnCase (input : Json) (location : Location) (before : Json) (target : FitTarget) :
    Bool × Json × FitTarget → Prop
  | idle {target' : FitTarget} {after : Json} (hsame : target.SameTarget target')
      (hretained : target'.retainedCount = target.retainedCount)
      (hvalue : input.at? location = some after) (haligned : Aligned target' before after) :
      TurnCase input location before target (false, input, target')
  | reduced {target' : FitTarget} {after : Json} (hsame : target.SameTarget target')
      (hreduced : target'.Reduced) (haligned : Aligned target' before after) :
      TurnCase input location before target (true, input.setAt location after, target')

lemma Aligned.exhaust {target : FitTarget} {before after : Json}
    (h : Aligned target before after) (text : Option String)
    (htext : text = target.originalText ∨
      target.originalText = none ∧ ∃ original, text = some original ∧ before = .string original) :
    Aligned { target with originalText := text, exhausted := true } before after := by
  cases h with
  | same hsame hcount hretained hall =>
    refine .same hsame hcount hretained fun original horiginal => ?_
    rcases htext with rfl | ⟨-, original', rfl, hbefore⟩
    · exact hall original horiginal
    · injection horiginal with horiginal
      rw [← horiginal, hbefore]
  | recent hstrategy hbefore hafter hremoved hkept horiginal hretained =>
    exact .recent hstrategy hbefore hafter hremoved hkept horiginal hretained
  | truncate hstrategy hbefore hafter hsaved homitted horiginal hretained hminimum =>
    refine .truncate hstrategy hbefore hafter ?_ homitted horiginal hretained hminimum
    rcases htext with rfl | ⟨hnone, -⟩
    · exact hsaved
    · rw [hsaved] at hnone
      cases hnone

/-- Records with the latest of them, or a text with what is left of it. -/
lemma Aligned.kinds {target : FitTarget} {before after : Json} (h : Aligned target before after) :
    (target.strategy = .recent ∧ ∃ removed kept : List Json, before = .array (removed ++ kept) ∧
      after = .array kept ∧ target.originalCount = (removed ++ kept).length ∧
      target.retainedCount = kept.length) ∨
    (target.strategy = .truncate ∧ ∃ text, before = .string text ∧
      (target.originalText = some text ∨ target.originalText = none ∧ after = .string text) ∧
      target.originalCount = text.utf8ByteSize ∧ target.retainedCount ≤ target.originalCount ∧
      (¬ target.Reduced → after = .string text)) := by
  cases h with
  | same hsame hcount hretained htext =>
    subst hsame
    cases hstrategy : target.strategy with
    | recent =>
      rw [hstrategy] at hcount
      cases after with
      | array items =>
        have hcount : items.length = target.originalCount := Option.some.inj hcount
        exact .inl ⟨rfl, [], items, rfl, rfl, hcount.symm, hretained.trans hcount.symm⟩
      | null | bool | number | string | object => cases hcount
    | truncate =>
      rw [hstrategy] at hcount
      cases after with
      | string text =>
        have hcount : text.utf8ByteSize = target.originalCount := Option.some.inj hcount
        refine .inr ⟨rfl, text, rfl, ?_, hcount.symm, Nat.le_of_eq hretained, fun _ => rfl⟩
        cases hsaved : target.originalText with
        | none => exact .inr ⟨rfl, rfl⟩
        | some saved =>
          have heq := htext saved hsaved
          injection heq with heq
          exact .inl (congrArg some heq.symm)
      | null | bool | number | array | object => cases hcount
  | recent hstrategy hbefore hafter _ _ horiginal hretained =>
    exact .inl ⟨hstrategy, _, _, hbefore, hafter, horiginal, hretained⟩
  | truncate hstrategy hbefore _ htext homitted horiginal _ _ =>
    exact .inr ⟨hstrategy, _, hbefore, .inl htext, horiginal, Nat.le_of_lt homitted,
      fun hred => absurd homitted hred⟩

section Reduce

variable {input before after : Json} {location : Location} {target : FitTarget}

section

variable (hptr : target.pointer = location.pointer) (hvalue : input.at? location = some after)
include hptr hvalue

lemma pointerMut_target : input.pointerMut target.pointer = some location := by
  rw [hptr]
  exact Json.pointerMut_pointer hvalue

lemma reduce_recent (hstrategy : target.strategy = .recent)
    (removed : List Json) {kept : List Json} (hbefore : before = .array (removed ++ kept))
    (hafter : after = .array kept) (horiginal : target.originalCount = (removed ++ kept).length)
    (hretained : target.retainedCount = kept.length) (haligned : Aligned target before after) :
    ∃ turn, reduce input target = some turn ∧ TurnCase input location before target turn := by
  have hfound := pointerMut_target hptr hvalue
  unfold reduce
  simp only [hfound, hvalue, hstrategy, hafter, Json.asArray, Option.bind_eq_bind,
    Option.bind_some]
  split_ifs with hshort
  · refine ⟨_, rfl, .idle ⟨rfl, rfl, hstrategy.symm, rfl⟩ rfl (hafter ▸ hvalue) ?_⟩
    rw [← hafter, ← hstrategy]
    exact haligned.exhaust _ (.inl rfl)
  · refine ⟨_, rfl, .reduced ⟨rfl, rfl, hstrategy.symm, rfl⟩ ?_ ?_⟩
    · show target.retainedCount - 1 < target.originalCount
      rw [horiginal, hretained, List.length_append]
      omega
    · -- the first kept record joins the removed ones
      obtain ⟨record, rest, rfl⟩ : ∃ record rest, kept = record :: rest :=
        List.exists_cons_of_length_pos (by omega)
      have hrest : rest ≠ [] := by
        rintro rfl
        exact hshort (Nat.le_refl 1)
      have hbefore' : before = .array ((removed ++ [record]) ++ rest) := by
        rw [hbefore, List.append_assoc]
        rfl
      refine .recent rfl hbefore' rfl ?_ hrest ?_ ?_
      · exact List.append_ne_nil_of_right_ne_nil _ (List.cons_ne_nil _ _)
      · show target.originalCount = _
        rw [horiginal, List.append_assoc]
        rfl
      · show target.retainedCount - 1 = rest.length
        rw [hretained]
        rfl

lemma reduce_truncate (hstrategy : target.strategy = .truncate)
    {text : String} (hbefore : before = .string text)
    (htext : target.originalText = some text ∨ target.originalText = none ∧ after = .string text)
    (horiginal : target.originalCount = text.utf8ByteSize)
    (hretained : target.retainedCount ≤ target.originalCount)
    (haligned : Aligned target before after) :
    ∃ turn, reduce input target = some turn ∧ TurnCase input location before target turn := by
  have hfound := pointerMut_target hptr hvalue
  have hsaved : target.originalText.or after.asStr = some text := by
    rcases htext with htext | ⟨htext, hafter⟩
    · rw [htext]
      rfl
    · rw [htext, hafter]
      rfl
  have hidle : Aligned { target with originalText := some text, exhausted := true } before after := by
    refine haligned.exhaust _ ?_
    rcases htext with htext | ⟨htext, -⟩
    · exact .inl htext.symm
    · exact .inr ⟨htext, text, rfl, hbefore⟩
  unfold reduce
  simp only [hfound, hvalue, hstrategy, Option.bind_eq_bind, Option.bind_some]
  split_ifs with hsmall
  · refine ⟨_, rfl, .idle ⟨rfl, rfl, hstrategy.symm, rfl⟩ rfl hvalue ?_⟩
    rw [← hstrategy]
    exact haligned.exhaust _ (.inl rfl)
  · rw [hsaved]
    simp only [Option.bind_some]
    generalize hkeep : max (target.retainedCount - TRUNCATE_CHUNK_BYTES) MINIMUM_TEXT_BYTES = keep
    have hkeep_min : MINIMUM_TEXT_BYTES ≤ keep := hkeep ▸ Nat.le_max_right _ _
    have hkeep_le : keep ≤ text.utf8ByteSize := by
      rw [← horiginal, ← hkeep]
      refine Nat.le_trans (Nat.max_le.mpr ⟨Nat.sub_le _ _, ?_⟩) hretained
      exact Nat.le_of_lt (Nat.not_le.mp hsmall)
    have hhead := headBoundary_spec text (text.utf8ByteSize - (keep + 1) / 2)
      ((keep + 1) / 2) (by omega)
    have htail := tailBoundary_spec text (text.utf8ByteSize - keep / 2)
    generalize headBoundary text (text.utf8ByteSize - (keep + 1) / 2) ((keep + 1) / 2) = head
      at hhead ⊢
    generalize tailBoundary text (text.utf8ByteSize - keep / 2) = tail at htail ⊢
    split_ifs with hlarge
    · exact ⟨_, rfl, .idle ⟨rfl, rfl, hstrategy.symm, rfl⟩ rfl hvalue (hstrategy ▸ hidle)⟩
    · have hlt : head < tail := by omega
      obtain ⟨start, omitted, rest, hcut, htext', hstart, homitted⟩ :=
        cutText_of_boundary hhead.1 htail.1 (Nat.le_of_lt hlt)
      have hsize : text.utf8ByteSize =
          start.utf8ByteSize + omitted.utf8ByteSize + rest.utf8ByteSize := by
        rw [htext', String.utf8ByteSize_append, String.utf8ByteSize_append]
      rw [hcut]
      simp only [Option.bind_some]
      split_ifs with hmarker
      · exact ⟨_, rfl, .idle ⟨rfl, rfl, hstrategy.symm, rfl⟩ rfl hvalue (hstrategy ▸ hidle)⟩
      · have hreduced : head + text.utf8ByteSize - tail < target.originalCount := by omega
        refine ⟨_, rfl, .reduced ⟨rfl, rfl, hstrategy.symm, rfl⟩ hreduced ?_⟩
        refine .truncate rfl (hbefore.trans (congrArg Json.string htext')) rfl
          (congrArg some htext') hreduced ?_ ?_ ?_
        · show target.originalCount = _
          rw [horiginal, htext']
        · show head + text.utf8ByteSize - tail = start.utf8ByteSize + rest.utf8ByteSize
          omega
        · show MINIMUM_TEXT_BYTES ≤ head + text.utf8ByteSize - tail
          omega

/-- **A turn never loses its target.** -/
lemma reduce_spec (haligned : Aligned target before after) :
    ∃ turn, reduce input target = some turn ∧ TurnCase input location before target turn := by
  rcases haligned.kinds with ⟨hstrategy, removed, kept, hbefore, hafter, horiginal, hretained⟩ |
    ⟨hstrategy, text, hbefore, htext, horiginal, hretained, -⟩
  · exact reduce_recent hptr hvalue hstrategy _ hbefore hafter horiginal hretained haligned
  · exact reduce_truncate hptr hvalue hstrategy hbefore htext horiginal hretained haligned

end

end Reduce

/-! ### The report -/

def Location.report (location : Location) : String := location.foldl extendPath ""

/-- A target with its location. -/
abbrev Placed := Location × FitTarget

structure Reported (report : FitReport) (targets : List Placed) : Prop where
  listed : ∀ omission, omission ∈ report.omissions ↔
    ∃ placed ∈ targets, placed.2.Reduced ∧ omission = placed.2.omission
  nodup : (report.omissions.map (·.path)).Nodup

lemma map_path_saveOmission (omission : FitOmission) (omissions : List FitOmission) :
    (saveOmission omission omissions).map (·.path) =
      if omission.path ∈ omissions.map (·.path) then omissions.map (·.path)
      else omissions.map (·.path) ++ [omission.path] := by
  induction omissions with
  | nil => rfl
  | cons saved rest ih =>
    rw [saveOmission]
    by_cases h : saved.path = omission.path
    · rw [if_pos h, List.map_cons, List.map_cons, if_pos (by rw [h]; exact List.mem_cons_self), h]
    · rw [if_neg h, List.map_cons, ih, List.map_cons]
      have hne : ¬ omission.path = saved.path := fun heq => h heq.symm
      simp only [List.mem_cons, hne, false_or]
      split_ifs <;> rfl

lemma mem_saveOmission {omission other : FitOmission} {omissions : List FitOmission}
    (hnodup : (omissions.map (·.path)).Nodup) :
    other ∈ saveOmission omission omissions ↔
      other = omission ∨ other ∈ omissions ∧ other.path ≠ omission.path := by
  induction omissions with
  | nil => simp [saveOmission]
  | cons saved rest ih =>
    rw [List.map_cons, List.nodup_cons] at hnodup
    rw [saveOmission]
    split_ifs with h
    · rw [List.mem_cons, List.mem_cons]
      refine or_congr_right ⟨fun hmem => ⟨.inr hmem, fun heq => ?_⟩, ?_⟩
      · -- another entry with the path of the saved one
        exact hnodup.1 (List.mem_map.mpr ⟨other, hmem, heq.trans h.symm⟩)
      · rintro ⟨rfl | hmem, hne⟩
        · exact absurd h hne
        · exact hmem
    · rw [List.mem_cons, ih hnodup.2, List.mem_cons]
      constructor
      · rintro (rfl | rfl | ⟨hmem, hne⟩)
        · exact .inr ⟨.inl rfl, h⟩
        · exact .inl rfl
        · exact .inr ⟨.inr hmem, hne⟩
      · rintro (rfl | ⟨rfl | hmem, hne⟩)
        · exact .inr (.inl rfl)
        · exact .inl rfl
        · exact .inr (.inr ⟨hmem, hne⟩)

/-! ### Runs -/

/-- The state of a run: every target is aligned with the input, the rest of the input
is untouched, and the report is right where the paths can be told apart. -/
structure Fits (locations : List Location) (input value : Json) (report : FitReport)
    (targets : List Placed) : Prop where
  locations_eq : targets.map (·.1) = locations
  pointer : ∀ placed ∈ targets, placed.2.pointer = placed.1.pointer
  path : ∀ placed ∈ targets, placed.2.path = placed.1.report
  aligned : ∀ placed ∈ targets, ∃ before after, input.at? placed.1 = some before ∧
    value.at? placed.1 = some after ∧ Aligned placed.2 before after
  elsewhere : ∀ location, (∀ placed ∈ targets, placed.2.Reduced →
    Location.Diverges location placed.1) → value.at? location = input.at? location
  reported : (locations.map Location.report).Nodup → Reported report targets

section Turn

variable {locations : List Location} {input value : Json} {report : FitReport}
  {done todo : List Placed} {location : Location} {target target' : FitTarget}

lemma Fits.diverges (h : Fits locations input value report (done ++ (location, target) :: todo))
    (hapart : locations.Pairwise Location.Diverges) {placed : Placed}
    (hplaced : placed ∈ done ++ todo) : Location.Diverges placed.1 location := by
  rw [← h.locations_eq, List.map_append, List.map_cons, List.pairwise_append] at hapart
  obtain ⟨-, htodo, hdone⟩ := hapart
  rw [List.pairwise_cons] at htodo
  rcases List.mem_append.mp hplaced with hmem | hmem
  · exact hdone _ (List.mem_map_of_mem hmem) _ List.mem_cons_self
  · exact (htodo.1 _ (List.mem_map_of_mem hmem)).symm

lemma mem_middle {placed q : Placed} :
    placed ∈ done ++ q :: todo ↔ placed = q ∨ placed ∈ done ++ todo := by
  simp only [List.mem_append, List.mem_cons]
  tauto

section

variable (h : Fits locations input value report (done ++ (location, target) :: todo))
include h

lemma Fits.idle
    (hsame : target.SameTarget target') (hretained : target'.retainedCount = target.retainedCount)
    (haligned : ∃ before after, input.at? location = some before ∧
      value.at? location = some after ∧ Aligned target' before after) :
    Fits locations input value report (done ++ (location, target') :: todo) := by
  have hreduced : target'.Reduced ↔ target.Reduced := by
    rw [FitTarget.Reduced, FitTarget.Reduced, hretained, hsame.originalCount]
  have homission : target'.omission = target.omission := by
    rw [FitTarget.omission, FitTarget.omission, hsame.path, hsame.strategy, hsame.originalCount,
      hretained]
  refine ⟨?_, ?_, ?_, ?_, ?_, ?_⟩
  · rw [← h.locations_eq, List.map_append, List.map_append]
    rfl
  · exact List.forall_around (hsame.pointer.trans (h.pointer _ (mem_middle.mpr (.inl rfl))))
      h.pointer
  · exact List.forall_around (hsame.path.trans (h.path _ (mem_middle.mpr (.inl rfl)))) h.path
  · exact List.forall_around haligned h.aligned
  · intro m hm
    refine h.elsewhere m fun placed hplaced hplacedReduced => ?_
    rcases mem_middle.mp hplaced with rfl | hmem
    · exact hm (location, target') (mem_middle.mpr (.inl rfl)) (hreduced.mpr hplacedReduced)
    · exact hm placed (mem_middle.mpr (.inr hmem)) hplacedReduced
  · intro hnodup
    obtain ⟨hlisted, hpaths⟩ := h.reported hnodup
    refine ⟨fun omission => (hlisted omission).trans ?_, hpaths⟩
    constructor
    · rintro ⟨placed, hplaced, hplacedReduced, homission'⟩
      rcases mem_middle.mp hplaced with rfl | hmem
      · exact ⟨_, mem_middle.mpr (.inl rfl), hreduced.mpr hplacedReduced,
          homission'.trans homission.symm⟩
      · exact ⟨placed, mem_middle.mpr (.inr hmem), hplacedReduced, homission'⟩
    · rintro ⟨placed, hplaced, hplacedReduced, homission'⟩
      rcases mem_middle.mp hplaced with rfl | hmem
      · exact ⟨_, mem_middle.mpr (.inl rfl), hreduced.mp hplacedReduced,
          homission'.trans homission⟩
      · exact ⟨placed, mem_middle.mpr (.inr hmem), hplacedReduced, homission'⟩

lemma Fits.reduced
    (hapart : locations.Pairwise Location.Diverges) (hsame : target.SameTarget target')
    (hreduced : target'.Reduced) {before after : Json} (hbefore : input.at? location = some before)
    (haligned : Aligned target' before after) :
    Fits locations input (value.setAt location after)
      ⟨saveOmission target'.omission report.omissions⟩ (done ++ (location, target') :: todo) := by
  have hpath : target'.path = location.report :=
    hsame.path.trans (h.path (location, target) (mem_middle.mpr (.inl rfl)))
  refine ⟨?_, ?_, ?_, ?_, ?_, ?_⟩
  · rw [← h.locations_eq, List.map_append, List.map_append]
    rfl
  · exact List.forall_around (hsame.pointer.trans (h.pointer _ (mem_middle.mpr (.inl rfl))))
      h.pointer
  · exact List.forall_around hpath h.path
  · intro placed hplaced
    rcases mem_middle.mp hplaced with rfl | hmem
    · obtain ⟨-, old, -, hold, -⟩ := h.aligned (location, target) (mem_middle.mpr (.inl rfl))
      exact ⟨before, after, hbefore, Json.at?_setAt_self hold after, haligned⟩
    · -- the other targets find their own values
      obtain ⟨b, a, hb, ha, hplacedAligned⟩ := h.aligned _ (mem_middle.mpr (.inr hmem))
      refine ⟨b, a, hb, ?_, hplacedAligned⟩
      rw [Json.at?_setAt_of_diverges _ _ (h.diverges hapart hmem), ha]
  · intro m hm
    have hdiverges := hm (location, target') (mem_middle.mpr (.inl rfl)) hreduced
    rw [Json.at?_setAt_of_diverges _ _ hdiverges]
    refine h.elsewhere m fun placed hplaced hplacedReduced => ?_
    rcases mem_middle.mp hplaced with rfl | hmem
    · exact hdiverges
    · exact hm placed (mem_middle.mpr (.inr hmem)) hplacedReduced
  · intro hnodup
    obtain ⟨hlisted, hpaths⟩ := h.reported hnodup
    -- the paths of the other targets are different
    have hother : ∀ placed ∈ done ++ todo, placed.2.path ≠ target'.path := by
      intro placed hmem heq
      rw [h.path _ (mem_middle.mpr (.inr hmem)), hpath] at heq
      have hinj := List.inj_on_of_nodup_map hnodup
      have hloc : placed.1 = location := by
        refine hinj ?_ ?_ heq
        · rw [← h.locations_eq]
          exact List.mem_map_of_mem (mem_middle.mpr (.inr hmem))
        · rw [← h.locations_eq]
          exact List.mem_map_of_mem (f := fun placed : Placed => placed.1)
            (a := (location, target)) (mem_middle.mpr (.inl rfl))
      exact (h.diverges hapart hmem).1 (hloc ▸ List.prefix_refl _)
    refine ⟨fun omission => ?_, ?_⟩
    · rw [mem_saveOmission hpaths]
      constructor
      · rintro (rfl | ⟨hmem, hne⟩)
        · exact ⟨_, mem_middle.mpr (.inl rfl), hreduced, rfl⟩
        · obtain ⟨placed, hplaced, hplacedReduced, rfl⟩ := (hlisted omission).mp hmem
          rcases mem_middle.mp hplaced with rfl | hmem
          · exact absurd hsame.path.symm hne
          · exact ⟨placed, mem_middle.mpr (.inr hmem), hplacedReduced, rfl⟩
      · rintro ⟨placed, hplaced, hplacedReduced, rfl⟩
        rcases mem_middle.mp hplaced with rfl | hmem
        · exact .inl rfl
        · refine .inr ⟨(hlisted _).mpr ⟨placed, mem_middle.mpr (.inr hmem), hplacedReduced, rfl⟩, ?_⟩
          exact hother placed hmem
    · show ((saveOmission target'.omission report.omissions).map (·.path)).Nodup
      rw [map_path_saveOmission]
      split_ifs with hmem
      · exact hpaths
      · exact List.nodup_append.mpr ⟨hpaths, List.nodup_singleton _, fun a ha b hb => by
          rw [List.mem_singleton.mp hb]
          rintro rfl
          exact hmem ha⟩

end

end Turn

/-! ### Ends of a run -/

section Exits

variable {σ : Type} {validate : FitValidator σ} {locations : List Location} {input : Json}

def Accepted (validate : FitValidator σ) (value : Json) (report : FitReport) (exit : FitExit σ) :
    Prop :=
  ∃ (validator : σ) (work : FittingWorkBudget),
    validate validator work value report = (.ok (), exit.work, exit.validator)

/-- A run ends in a failure, or with an accepted request that fits. -/
inductive GoodExit (validate : FitValidator σ) (locations : List Location) (input : Json)
    (exit : FitExit σ) : Prop
  | failed {error : PreparationFailure} (houtcome : exit.outcome = .failed error)
  | fitted {value : Json} {report : FitReport} {targets : List Placed}
      (houtcome : exit.outcome = .fitted value report)
      (hfits : Fits locations input value report targets)
      (haccepted : Accepted validate value report exit)

structure Validated (state state' : FitState σ) : Prop where
  input : state'.input = state.input
  report : state'.report = state.report
  turns : state'.turns = state.turns

lemma validateRequest_spec (validate : FitValidator σ) (state : FitState σ) :
    (∃ exit error, validateRequest validate state = .error exit ∧
      exit.outcome = .failed error) ∨
    ∃ accepted state', validateRequest validate state = .ok (accepted, state') ∧
      Validated state state' ∧
        (accepted = true → ∀ outcome,
          Accepted validate state'.input state'.report (state'.exit outcome)) := by
  unfold validateRequest
  rcases hresult : validate state.validator state.work state.input state.report with
    ⟨result, work, validator⟩
  cases result with
  | ok _ =>
    refine .inr ⟨true, _, rfl, ⟨rfl, rfl, rfl⟩, fun _ outcome => ?_⟩
    exact ⟨state.validator, state.work, hresult⟩
  | error error =>
    cases error with
    | overBudget estimate =>
      exact .inr ⟨false, _, rfl, ⟨rfl, rfl, rfl⟩, fun h => by cases h⟩
    | resourceLimit budget | unavailable detail | invalidRequest detail ctx => exact .inl ⟨_, _, rfl, rfl⟩

/-- The turns behind a step: at least as many, one more when something changed, and
never over the limit. -/
def TurnsAfter (turns : Nat) (changed : Bool) (turns' : Nat) : Prop :=
  turns ≤ turns' ∧ (changed = true → turns < turns') ∧
    (turns ≤ MAX_FIT_TURNS → turns' ≤ MAX_FIT_TURNS)

variable (validate) in
lemma fitTurn_spec {done todo : List Placed} {location : Location} {target : FitTarget}
    {state : FitState σ} (hapart : locations.Pairwise Location.Diverges)
    (h : Fits locations input state.input state.report (done ++ (location, target) :: todo)) :
    (∃ exit, fitTurn validate target state = .error exit ∧
      GoodExit validate locations input exit) ∨
    ∃ changed target' state', fitTurn validate target state = .ok (changed, target', state') ∧
      Fits locations input state'.input state'.report (done ++ (location, target') :: todo) ∧
        TurnsAfter state.turns changed state'.turns := by
  unfold fitTurn
  split_ifs with hexh
  · exact .inr ⟨_, _, _, rfl, h, Nat.le_refl _, (fun hfalse => by cases hfalse), id⟩
  · dsimp only
    cases hcount : checkCount .turns (state.turns + 1) MAX_FIT_TURNS with
    | error error => exact .inl ⟨_, rfl, .failed rfl⟩
    | ok counted =>
      have hturns : state.turns + 1 ≤ MAX_FIT_TURNS := by
        unfold checkCount at hcount
        split_ifs at hcount with hover
        exact Nat.not_lt.mp hover
      obtain ⟨before, old, hbefore, hold, haligned⟩ :=
        h.aligned (location, target) (mem_middle.mpr (.inl rfl))
      have hptr := h.pointer (location, target) (mem_middle.mpr (.inl rfl))
      obtain ⟨turn, hreduce, hcase⟩ := reduce_spec hptr hold haligned
      dsimp only at hreduce ⊢
      rw [hreduce]
      cases hcase with
      | @idle target' after hsame hretained hvalue haligned' =>
        refine .inr ⟨false, target', { state with turns := state.turns + 1 }, rfl, ?_, Nat.le_succ _,
          (fun hfalse => by cases hfalse), fun _ => hturns⟩
        exact h.idle hsame hretained ⟨before, after, hbefore, hvalue, haligned'⟩
      | @reduced target' after hsame hreduced haligned' =>
        have hnext := h.reduced hapart hsame hreduced hbefore haligned'
        dsimp only
        -- the work of serializing the reduced input
        cases hmsr : FitState.measure { state with
            input := state.input.setAt location after
            turns := state.turns + 1 } with
        | error exit =>
          refine .inl ⟨exit, rfl, ?_⟩
          unfold FitState.measure at hmsr
          split at hmsr
          · injection hmsr with hmsr
            exact .failed (by rw [← hmsr]; rfl)
          · cases hmsr
        | ok measured =>
          have hmeas : measured.input = state.input.setAt location after ∧
              measured.report = state.report ∧ measured.turns = state.turns + 1 := by
            unfold FitState.measure at hmsr
            split at hmsr
            · cases hmsr
            · injection hmsr with hmsr
              rw [← hmsr]
              exact ⟨rfl, rfl, rfl⟩
          obtain ⟨hinput, hreport, hmeasuredTurns⟩ := hmeas
          rcases validateRequest_spec validate { measured with
              report := ⟨saveOmission target'.omission measured.report.omissions⟩ } with
            ⟨exit, error, hvali, houtcome⟩ | ⟨accepted, state', hvali, hstate, haccepted⟩
          · refine .inl ⟨exit, ?_, .failed houtcome⟩
            show (validateRequest validate _).bind _ = _
            rw [hvali]
            rfl
          · have hfits : Fits locations input state'.input state'.report
                (done ++ (location, target') :: todo) := by
              rw [hstate.input, hstate.report]
              show Fits locations input measured.input
                ⟨saveOmission target'.omission measured.report.omissions⟩ _
              rw [hinput, hreport]
              exact hnext
            cases accepted with
            | true =>
              refine .inl ⟨state'.exit (.fitted state'.input state'.report), ?_,
                .fitted rfl hfits (haccepted rfl _)⟩
              show (validateRequest validate _).bind _ = _
              rw [hvali]
              rfl
            | false =>
              refine .inr ⟨true, target', state', ?_, hfits, ?_⟩
              · show (validateRequest validate _).bind _ = _
                rw [hvali]
                rfl
              · rw [hstate.turns]
                show TurnsAfter state.turns true measured.turns
                rw [hmeasuredTurns]
                exact ⟨Nat.le_succ _, fun _ => Nat.lt_succ_self _, fun _ => hturns⟩

lemma TurnsAfter.trans {a b c : Nat} {changed changed' : Bool} (h : TurnsAfter a changed b)
    (h' : TurnsAfter b changed' c) : TurnsAfter a (changed || changed') c := by
  refine ⟨Nat.le_trans h.1 h'.1, fun hchanged => ?_, fun hle => h'.2.2 (h.2.2 hle)⟩
  rcases Bool.or_eq_true_iff.mp hchanged with hfirst | hsecond
  · exact Nat.lt_of_lt_of_le (h.2.1 hfirst) h'.1
  · exact Nat.lt_of_le_of_lt h.1 (h'.2.1 hsecond)

variable (validate) in
lemma fitRound_spec (done : List Placed) {todo : List Placed} {state : FitState σ}
    (hapart : locations.Pairwise Location.Diverges)
    (h : Fits locations input state.input state.report (done ++ todo)) :
    (∃ exit, fitRound validate (todo.map (·.2)) state = .error exit ∧
      GoodExit validate locations input exit) ∨
    ∃ changed todo' state', fitRound validate (todo.map (·.2)) state =
        .ok (changed, todo'.map (·.2), state') ∧
      Fits locations input state'.input state'.report (done ++ todo') ∧
        TurnsAfter state.turns changed state'.turns := by
  induction todo generalizing done state with
  | nil => exact .inr ⟨false, [], state, rfl, h, Nat.le_refl _, (fun hfalse => by cases hfalse), id⟩
  | cons placed todo ih =>
    obtain ⟨location, target⟩ := placed
    rw [List.map_cons, fitRound]
    rcases fitTurn_spec validate hapart h with
      ⟨exit, hturn, hgood⟩ | ⟨reduced, target', state', hturn, hfits, hturns⟩
    · refine .inl ⟨exit, ?_, hgood⟩
      show (fitTurn validate target state).bind _ = _
      rw [hturn]
      rfl
    · -- the target that had its turn joins the ones before
      have hfits' : Fits locations input state'.input state'.report
          ((done ++ [(location, target')]) ++ todo) := by
        rw [List.append_assoc]
        exact hfits
      rcases ih _ hfits' with ⟨exit, hround, hgood⟩ | ⟨changed, todo', state'', hround, hrest, hturns'⟩
      · refine .inl ⟨exit, ?_, hgood⟩
        show (fitTurn validate target state).bind _ = _
        rw [hturn]
        show (fitRound validate (todo.map (·.2)) state').bind _ = _
        rw [hround]
        rfl
      · refine .inr ⟨reduced || changed, (location, target') :: todo', state'', ?_, ?_,
          hturns.trans hturns'⟩
        · show (fitTurn validate target state).bind _ = _
          rw [hturn]
          show (fitRound validate (todo.map (·.2)) state').bind _ = _
          rw [hround]
          rfl
        · rw [List.append_assoc] at hrest
          exact hrest

/-- **Rounds.**  They end, and they end well. -/
lemma fitRounds_spec {rules : List FitRule} {matched fuel : Nat} {targets : List Placed}
    {state : FitState σ} (hapart : locations.Pairwise Location.Diverges)
    (h : Fits locations input state.input state.report targets)
    (hturns : state.turns ≤ MAX_FIT_TURNS) (hfuel : MAX_FIT_TURNS < state.turns + fuel) :
    GoodExit validate locations input
      (fitRounds validate rules matched fuel (targets.map (·.2)) state) := by
  induction fuel generalizing targets state with
  | zero => exact absurd hfuel (Nat.not_lt.mpr hturns)
  | succ fuel ih =>
    rw [fitRounds]
    rcases fitRound_spec validate [] hapart h with
      ⟨exit, hround, hgood⟩ | ⟨changed, targets', state', hround, hfits, hafter⟩
    · rw [hround]
      exact hgood
    · rw [hround]
      cases changed with
      | false => exact .failed rfl
      | true =>
        have hlt := hafter.2.1 rfl
        exact ih hfits (hafter.2.2 hturns) (by omega)

end Exits

/-! ### Expansion -/

inductive Step.Matches : Step → FitPathSegment → Prop
  | key (name : String) : Step.Matches (.key name) (.field name)
  | index (i : Nat) : Step.Matches (.index i) .each

structure Placed.Fresh (input : Json) (placed : Placed) : Prop where
  pointer : placed.2.pointer = placed.1.pointer
  path : placed.2.path = placed.1.report
  value : ∃ value, input.at? placed.1 = some value ∧
    placed.2.strategy.count value = some placed.2.originalCount
  retained : placed.2.retainedCount = placed.2.originalCount
  text : placed.2.originalText = none

lemma Location.report_append (base : Location) (step : Step) :
    (base ++ [step]).report = extendPath base.report step := by
  rw [Location.report, List.foldl_append]
  rfl

lemma Location.pointer_append (base : Location) (step : Step) :
    (base ++ [step]).pointer = base.pointer ++ "/" ++ step.token := by
  rw [Location.pointer, List.foldl_append]
  rfl

structure Expanded (input : Json) (base : Location) (segments : List FitPathSegment)
    (old new : List FitTarget) (added : List Placed) : Prop where
  targets : new = old ++ added.map (·.2)
  fresh : ∀ placed ∈ added, Placed.Fresh input placed ∧
    ∃ steps, placed.1 = base ++ steps ∧ List.Forall₂ Step.Matches steps segments
  apart : (added.map (·.1)).Pairwise Location.Diverges

variable {expansion expansion' : Expansion} {input : Json} {segs : List FitPathSegment}
  {added : List Placed} {base : Location}

lemma expandTarget_spec {value : Json} {strategy : FitStrategy}
    (hvalue : input.at? base = some value)
    (h : expandTarget value base.pointer base.report strategy expansion = .ok expansion') :
    ∃ added, Expanded input base [] expansion.targets expansion'.targets added := by
  unfold expandTarget at h
  cases hcount : strategy.count value with
  | none =>
    rw [hcount] at h
    cases h
  | some count =>
    rw [hcount] at h
    dsimp only at h
    cases hcheck : checkCount .expandedTargets (expansion.matched + 1) MAX_FIT_TARGETS with
    | error error =>
      rw [hcheck] at h
      cases h
    | ok _ =>
      rw [hcheck] at h
      change (if count ≤ strategy.minimum then _ else _) = _ at h
      split_ifs at h with hsmall
      · cases h
        exact ⟨[], (List.append_nil _).symm, fun _ hmem => absurd hmem List.not_mem_nil, .nil⟩
      · cases h
        refine ⟨[(base, _)], rfl, fun placed hmem => ?_, List.pairwise_singleton _ _⟩
        rw [List.mem_singleton.mp hmem]
        exact ⟨⟨rfl, rfl, ⟨value, hvalue, hcount⟩, rfl, rfl⟩, [], (List.append_nil _).symm, .nil⟩

lemma Expanded.step {step : Step} {seg : FitPathSegment}
    {rest : List FitPathSegment} {old new : List FitTarget}
    (hmatch : Step.Matches step seg)
    (h : Expanded input (base ++ [step]) rest old new added) :
    Expanded input base (seg :: rest) old new added := by
  refine ⟨h.targets, fun placed hmem => ?_, h.apart⟩
  obtain ⟨hfresh, steps, hplaced, hsteps⟩ := h.fresh placed hmem
  refine ⟨hfresh, step :: steps, ?_, .cons hmatch hsteps⟩
  rw [hplaced, List.append_assoc]
  rfl

lemma Expanded.append
    {a b c : List FitTarget} {added' : List Placed}
    (h : Expanded input base segs a b added) (h' : Expanded input base segs b c added')
    (hapart : ∀ placed ∈ added, ∀ placed' ∈ added', Location.Diverges placed.1 placed'.1) :
    Expanded input base segs a c (added ++ added') := by
  refine ⟨?_, fun placed hmem => ?_, ?_⟩
  · rw [h'.targets, h.targets, List.map_append, List.append_assoc]
  · rcases List.mem_append.mp hmem with hmem | hmem
    · exact h.fresh placed hmem
    · exact h'.fresh placed hmem
  · rw [List.map_append, List.pairwise_append]
    refine ⟨h.apart, h'.apart, fun a ha b hb => ?_⟩
    obtain ⟨placed, hplaced, rfl⟩ := List.mem_map.mp ha
    obtain ⟨placed', hplaced', rfl⟩ := List.mem_map.mp hb
    exact hapart placed hplaced placed' hplaced'

lemma expand_spec {strategy : FitStrategy}
    {value : Json}
    (hvalue : input.at? base = some value)
    (h : expand segs value base.pointer base.report strategy expansion = .ok expansion') :
    ∃ added, Expanded input base segs expansion.targets expansion'.targets added := by
  induction segs generalizing value base expansion expansion' with
  | nil =>
    rw [expand] at h
    dsimp only at h
    cases hcheck : checkCount .traversalNodes (expansion.visited + 1) MAX_FIT_TRAVERSAL_NODES with
    | error error =>
      rw [hcheck] at h
      cases h
    | ok _ =>
      rw [hcheck] at h
      have hspec := expandTarget_spec hvalue h
      exact hspec
  | cons seg rest ih =>
    unfold expand at h
    dsimp only at h
    cases hcheck : checkCount .traversalNodes (expansion.visited + 1) MAX_FIT_TRAVERSAL_NODES with
    | error error =>
      rw [hcheck] at h
      cases h
    | ok _ =>
      rw [hcheck] at h
      cases seg with
      | field field =>
        cases value with
        | object object =>
          dsimp only [bind, Except.bind] at h
          cases hfield : Object.get? object field with
          | none =>
            rw [hfield] at h
            cases h
            exact ⟨[], (List.append_nil _).symm, fun _ hmem => absurd hmem List.not_mem_nil, .nil⟩
          | some inner =>
            rw [hfield] at h
            have hinner : input.at? (base ++ [.key field]) = some inner := by
              rw [Json.at?_append, hvalue]
              show (Object.get? object field).bind _ = _
              rw [hfield]
              rfl
            rw [← Location.report_append] at h
            have hptr : base.pointer ++ "/" ++ escapeToken field =
                Location.pointer (base ++ [.key field]) := (base.pointer_append (.key field)).symm
            dsimp only at h
            rw [hptr] at h
            obtain ⟨added, hadded⟩ := ih hinner h
            exact ⟨added, hadded.step (.key field)⟩
        | null | bool | number | string | array => cases h
      | each =>
        cases value with
        | array items =>
          dsimp only [bind, Except.bind] at h
          have hitems : ∀ entry ∈ items.zipIdx,
              input.at? (base ++ [.index entry.2]) = some entry.1 := by
            intro entry hentry
            rw [Json.at?_append, hvalue]
            show items[entry.2]?.bind _ = _
            rw [List.mk_mem_zipIdx_iff_getElem?.mp hentry]
            rfl
          have hindexes : (items.zipIdx.map (·.2)).Nodup := by
            rw [List.zipIdx_map_snd]
            exact List.nodup_range'
          -- over the items, from any expansion
          have hstart : ∃ expansion₀ : Expansion, expansion₀.targets = expansion.targets ∧
              items.zipIdx.foldlM (fun expansion entry =>
                expand rest entry.1 (base.pointer ++ "/" ++ toString entry.2)
                  (extendPath base.report (.index entry.2)) strategy expansion) expansion₀ =
                .ok expansion' :=
            ⟨{ expansion with visited := expansion.visited + 1 }, rfl, h⟩
          clear h hcheck
          generalize items.zipIdx = entries at hitems hindexes hstart
          obtain ⟨expansion₀, htarg, h⟩ := hstart
          have hgoal : ∃ added, Expanded input base (.each :: rest) expansion₀.targets
              expansion'.targets added ∧ ∀ placed ∈ added, ∃ entry ∈ entries, ∃ steps,
                placed.1 = base ++ .index entry.2 :: steps := by
            clear htarg hvalue
            induction entries generalizing expansion₀ with
            | nil =>
              cases h
              exact ⟨[], ⟨(List.append_nil _).symm,
                fun _ hmem => absurd hmem List.not_mem_nil, .nil⟩,
                fun _ hmem => absurd hmem List.not_mem_nil⟩
            | cons entry entries ihEntries =>
              rw [List.foldlM_cons] at h
              have hptr : base.pointer ++ "/" ++ toString entry.2 =
                  Location.pointer (base ++ [.index entry.2]) :=
                (base.pointer_append (.index entry.2)).symm
              rw [← Location.report_append, hptr] at h
              cases hfirst : expand rest entry.1 (Location.pointer (base ++ [.index entry.2]))
                  (Location.report (base ++ [.index entry.2])) strategy expansion₀ with
              | error error =>
                rw [hfirst] at h
                cases h
              | ok expansion₁ =>
                rw [hfirst] at h
                obtain ⟨added, hadded⟩ := ih (hitems entry List.mem_cons_self) hfirst
                rw [List.map_cons, List.nodup_cons] at hindexes
                obtain ⟨added', hadded', hsteps'⟩ := ihEntries
                  (fun entry hentry => hitems entry (List.mem_cons_of_mem _ hentry)) hindexes.2
                  expansion₁ h
                have hsteps : ∀ placed ∈ added, ∃ steps,
                    placed.1 = base ++ .index entry.2 :: steps := by
                  intro placed hplaced
                  obtain ⟨-, steps, hloc, -⟩ := hadded.fresh placed hplaced
                  refine ⟨steps, ?_⟩
                  rw [hloc, List.append_assoc]
                  rfl
                refine ⟨added ++ added', (hadded.step (.index entry.2)).append hadded' ?_, ?_⟩
                · intro placed hplaced placed' hplaced'
                  obtain ⟨steps, hloc⟩ := hsteps placed hplaced
                  obtain ⟨entry', hentry', steps', hlocat'⟩ := hsteps' placed' hplaced'
                  rw [hloc, hlocat']
                  refine Location.Diverges.of_step (fun heq => ?_) steps steps'
                  injection heq with heq
                  exact hindexes.1 (heq ▸ List.mem_map_of_mem hentry')
                · intro placed hplaced
                  rcases List.mem_append.mp hplaced with hmem | hmem
                  · exact ⟨entry, List.mem_cons_self, hsteps placed hmem⟩
                  · obtain ⟨entry', hentry', hrest⟩ := hsteps' placed hmem
                    exact ⟨entry', List.mem_cons_of_mem _ hentry', hrest⟩
          obtain ⟨added, hadded, -⟩ := hgoal
          exact ⟨added, htarg ▸ hadded⟩
        | null | bool | number | string | object => cases h

lemma pathsOverlap_of_isPrefix_paths {a b : Location} {left right : List FitPathSegment}
    (ha : List.Forall₂ Step.Matches a left) (hb : List.Forall₂ Step.Matches b right)
    (h : a <+: b ∨ b <+: a) : pathsOverlap left right = true := by
  induction ha generalizing b right with
  | nil => rfl
  | @cons step seg a left hstep _ ih =>
    cases hb with
    | nil => rfl
    | @cons step' segment' b right hstep' hb =>
      have hsteps : step = step' ∧ (a <+: b ∨ b <+: a) := by
        rcases h with h | h
        · rw [List.cons_prefix_cons] at h
          exact ⟨h.1, .inl h.2⟩
        · rw [List.cons_prefix_cons] at h
          exact ⟨h.1.symm, .inr h.2⟩
      have hsegs : seg = segment' := by
        obtain ⟨rfl, -⟩ := hsteps
        cases hstep <;> cases hstep' <;> rfl
      have hrest : (left.zip right).all (fun pair => pair.1 == pair.2) = true := ih hb hsteps.2
      show ((seg, segment') :: left.zip right).all (fun pair => pair.1 == pair.2) = true
      rw [List.all_cons, hrest, hsegs]
      simp

structure Planned (input : Json) (rules : List FitRule) (targets : List FitTarget)
    (added : List Placed) : Prop where
  targets : targets = added.map (·.2)
  fresh : ∀ placed ∈ added, Placed.Fresh input placed ∧
    ∃ rule ∈ rules, List.Forall₂ Step.Matches placed.1 rule.segments
  apart : (added.map (·.1)).Pairwise Location.Diverges

lemma expandRules_spec {prev rules : List FitRule}
    (hplanned : Planned input prev expansion.targets added)
    (h : expandRules input prev rules expansion = .ok expansion') :
    ∃ added', Planned input (prev ++ rules) expansion'.targets added' := by
  induction rules generalizing prev expansion added with
  | nil =>
    cases h
    exact ⟨added, by rw [List.append_nil]; exact hplanned⟩
  | cons rule rest ih =>
    rw [expandRules] at h
    cases hrule : expandRule input prev rule expansion with
    | error error =>
      rw [hrule] at h
      cases h
    | ok expansion₁ =>
      rw [hrule] at h
      have hnext : ∃ added₁, Planned input (prev ++ [rule]) expansion₁.targets added₁ := by
        unfold expandRule at hrule
        cases hdepth : checkCount .pathDepth rule.segments.length MAX_FIT_PATH_SEGMENTS with
        | error error =>
          rw [hdepth] at hrule
          cases hrule
        | ok _ =>
          rw [hdepth] at hrule
          cases hbytes : checkCount .pathBytes rule.pathBytes MAX_FIT_PATH_BYTES with
          | error error =>
            rw [hbytes] at hrule
            cases hrule
          | ok _ =>
            rw [hbytes] at hrule
            dsimp only [bind, Except.bind] at hrule
            split_ifs at hrule with hoverlap
            cases hexpand : expand rule.segments input "" "" rule.strategy expansion with
            | error error =>
              rw [hexpand] at hrule
              cases hrule
            | ok expansion₂ =>
              rw [hexpand] at hrule
              cases hrule
              obtain ⟨new, hnew⟩ := expand_spec (show input.at? [] = some input from rfl) hexpand
              refine ⟨added ++ new, ?_, fun placed hmem => ?_, ?_⟩
              · rw [hnew.targets, hplanned.targets, List.map_append]
              · rcases List.mem_append.mp hmem with hmem | hmem
                · obtain ⟨hfresh, other, hother, hmatch⟩ := hplanned.fresh placed hmem
                  exact ⟨hfresh, other, List.mem_append_left _ hother, hmatch⟩
                · obtain ⟨hfresh, steps, hloc, hmatch⟩ := hnew.fresh placed hmem
                  refine ⟨hfresh, rule, List.mem_append_right _ List.mem_cons_self, ?_⟩
                  rw [hloc]
                  exact hmatch
              · rw [List.map_append, List.pairwise_append]
                refine ⟨hplanned.apart, hnew.apart, fun a ha b hb => ?_⟩
                obtain ⟨placed, hplaced, rfl⟩ := List.mem_map.mp ha
                obtain ⟨placed', hplaced', rfl⟩ := List.mem_map.mp hb
                obtain ⟨-, other, hother, hmatch⟩ := hplanned.fresh placed hplaced
                obtain ⟨-, steps, hloc, hmatch'⟩ := hnew.fresh placed' hplaced'
                have hlocat' : placed'.1 = steps := hloc
                rw [← hlocat'] at hmatch'
                -- the rule passed its test against each of the rules before it
                have hfree : ¬ pathsOverlap other.segments rule.segments = true := fun heq =>
                  hoverlap (List.any_eq_true.mpr ⟨other, hother, heq⟩)
                exact ⟨fun hpre => hfree (pathsOverlap_of_isPrefix_paths hmatch hmatch' (.inl hpre)),
                  fun hpre => hfree (pathsOverlap_of_isPrefix_paths hmatch hmatch' (.inr hpre))⟩
      obtain ⟨added₁, hadded₁⟩ := hnext
      obtain ⟨added', hadded'⟩ := ih hadded₁ h
      refine ⟨added', ?_⟩
      rw [List.append_assoc] at hadded'
      exact hadded'

/-! ### Report paths -/

structure FieldName (name : String) : Prop where
  ne_nil : name.toList ≠ []
  chars : ∀ c ∈ name.toList, isFieldChar c = true

structure Location.Named (location : Location) : Prop where
  head : ∃ name rest, location = .key name :: rest
  names : ∀ name, .key name ∈ location → FieldName name

def Step.suffix : Step → List Char
  | .key name => '.' :: name.toList
  | .index i => '[' :: (toString i).toList ++ [']']

lemma report_toList {name : String} (hname : name.toList ≠ []) (steps : Location) :
    (Location.report (.key name :: steps)).toList = name.toList ++ steps.flatMap Step.suffix := by
  have hstep (path : String) (hpath : path.toList ≠ []) : (steps.foldl extendPath path).toList =
      path.toList ++ steps.flatMap Step.suffix := by
    induction steps generalizing path with
    | nil => simp
    | cons step steps ih =>
      have hnext : (extendPath path step).toList = path.toList ++ step.suffix := by
        cases step with
        | key field =>
          have hempty : path.isEmpty = false := by
            rw [← Bool.not_eq_true, String.isEmpty_iff]
            rintro rfl
            exact hpath rfl
          rw [extendPath, hempty]
          simp [Step.suffix, String.toList_append]
        | index i => simp [extendPath, Step.suffix, String.toList_append]
      rw [List.foldl_cons, ih _ (by rw [hnext]; exact List.append_ne_nil_of_left_ne_nil hpath _),
        hnext, List.flatMap_cons, List.append_assoc]
  show ((steps.foldl extendPath (extendPath "" (.key name))).toList) = _
  exact hstep name hname

lemma append_inj_of_stop {p : Char → Bool} {a b r s : List Char} (h : a ++ r = b ++ s)
    (ha : ∀ c ∈ a, p c = true) (hb : ∀ c ∈ b, p c = true)
    (hr : r.head?.all fun c => !p c) (hs : s.head?.all fun c => !p c) : a = b ∧ r = s := by
  have hstop (r : List Char) (hr : r.head?.all fun c => !p c) : r.takeWhile p = [] := by
    cases r with
    | nil => rfl
    | cons c rest =>
      have hc : p c = false := by simpa using hr
      rw [List.takeWhile_cons, hc]
      rfl
  have htake := congrArg (List.takeWhile p) h
  rw [List.takeWhile_append_of_pos ha, List.takeWhile_append_of_pos hb, hstop r hr, hstop s hs,
    List.append_nil, List.append_nil] at htake
  subst htake
  exact ⟨rfl, List.append_cancel_left h⟩

lemma suffix_head? (steps : Location) :
    (steps.flatMap Step.suffix).head?.all fun c => !isFieldChar c := by
  cases steps with
  | nil => rfl
  | cons step steps => cases step <;> rfl

lemma flatMap_suffix_inj {steps steps' : Location}
    (hnames : ∀ name, Step.key name ∈ steps → FieldName name)
    (hnames' : ∀ name, Step.key name ∈ steps' → FieldName name)
    (h : steps.flatMap Step.suffix = steps'.flatMap Step.suffix) : steps = steps' := by
  induction steps generalizing steps' with
  | nil =>
    cases steps' with
    | nil => rfl
    | cons step' steps' => cases step' <;> cases h
  | cons step steps ih =>
    cases steps' with
    | nil => cases step <;> cases h
    | cons step' steps' =>
      have hrest := @ih steps' (fun name hmem => hnames name (List.mem_cons_of_mem _ hmem))
        fun name hmem => hnames' name (List.mem_cons_of_mem _ hmem)
      rw [List.flatMap_cons, List.flatMap_cons] at h
      cases step with
      | key name =>
        cases step' with
        | index i => cases h
        | key name' =>
          have htail := List.tail_eq_of_cons_eq h
          obtain ⟨hname, hsteps⟩ := append_inj_of_stop htail
            (hnames name List.mem_cons_self).chars (hnames' name' List.mem_cons_self).chars
            (suffix_head? steps) (suffix_head? steps')
          rw [String.toList_inj.mp hname, hrest hsteps]
      | index i =>
        cases step' with
        | key name => cases h
        | index j =>
          have htail := List.tail_eq_of_cons_eq h
          change ((toString i).toList ++ [']']) ++ _ = ((toString j).toList ++ [']']) ++ _ at htail
          rw [List.append_assoc, List.append_assoc] at htail
          obtain ⟨hindex, hsteps⟩ := append_inj_of_stop htail
            (fun _ => JsonCodec.isDigit_of_mem_toString)
            (fun _ => JsonCodec.isDigit_of_mem_toString) rfl rfl
          have hindex : toString i = toString j := String.toList_inj.mp hindex
          have hvalue : some i = some j := by
            rw [← JsonCodec.asU64_ofNat i, ← JsonCodec.asU64_ofNat j, Number.ofNat, Number.ofNat,
              hindex]
          rw [Option.some.inj hvalue, hrest (List.tail_eq_of_cons_eq hsteps)]

/-- **Report paths tell parsed locations apart.** -/
lemma report_injective {a b : Location} (ha : a.Named) (hb : b.Named)
    (h : a.report = b.report) : a = b := by
  obtain ⟨name, rest, rfl⟩ := ha.head
  obtain ⟨name', rest', rfl⟩ := hb.head
  have hname := ha.names name List.mem_cons_self
  have hname' := hb.names name' List.mem_cons_self
  have hchars := congrArg String.toList h
  rw [report_toList hname.ne_nil, report_toList hname'.ne_nil] at hchars
  obtain ⟨hfirst, hsteps⟩ := append_inj_of_stop hchars hname.chars hname'.chars
    (suffix_head? rest) (suffix_head? rest')
  have hrest := flatMap_suffix_inj (fun field hmem => ha.names field (List.mem_cons_of_mem _ hmem))
    (fun field hmem => hb.names field (List.mem_cons_of_mem _ hmem)) hsteps
  rw [String.toList_inj.mp hfirst, hrest]

lemma isFieldChar_of_start {c : Char} (h : (c.isAlpha || c == '_') = true) :
    isFieldChar c = true := by
  rw [isFieldChar, Char.isAlphanum]
  rcases Bool.or_eq_true_iff.mp h with h | h
  · rw [h]
    rfl
  · rw [h, Bool.or_true]

lemma parseFitFields_spec {fuel : Nat} {first : Bool} {chars : List Char}
    (h : parseFitFields fuel first chars = some segs) :
    (∃ name rest, segs = .field name :: rest) ∧
      ∀ name, FitPathSegment.field name ∈ segs → FieldName name := by
  induction fuel generalizing first chars segs with
  | zero => cases h
  | succ fuel ih =>
    rw [parseFitFields] at h
    dsimp only at h
    split_ifs at h with hstart hfirst
    have hname : FieldName (String.ofList (chars.takeWhile isFieldChar)) := by
      refine ⟨?_, fun c hc => ?_⟩
      · rw [String.toList_ofList]
        cases chars with
        | nil => exact absurd rfl hstart
        | cons c rest =>
          have hc : (c.isAlpha || c == '_') = true := by
            rw [List.head?_cons, Option.any_some, Bool.not_eq_true'] at hstart
            exact Bool.not_eq_false _ ▸ hstart
          rw [List.takeWhile_cons, isFieldChar_of_start hc]
          exact List.cons_ne_nil _ _
      · rw [String.toList_ofList] at hc
        have hall := List.all_takeWhile (l := chars) (p := isFieldChar)
        exact List.all_eq_true.mp hall c hc
    have hsegs : ∀ count name, FitPathSegment.field name ∈
        .field (String.ofList (chars.takeWhile isFieldChar)) :: List.replicate count .each →
          FieldName name := by
      intro count name hmem
      rcases List.mem_cons.mp hmem with heq | hmem
      · injection heq with heq
        rw [heq]
        exact hname
      · cases (List.mem_replicate.mp hmem).2
    generalize dropTraversals (chars.dropWhile isFieldChar) = traversals at h
    obtain ⟨count, rest⟩ := traversals
    dsimp only at h
    split at h
    · cases h
      exact ⟨⟨_, _, rfl⟩, hsegs count⟩
    · rw [Option.map_eq_some_iff] at h
      obtain ⟨more, hmore, rfl⟩ := h
      refine ⟨⟨_, _, rfl⟩, fun name hmem => ?_⟩
      rcases List.mem_append.mp hmem with hmem | hmem
      · exact hsegs count name hmem
      · exact (ih hmore).2 name hmem
    · cases h

lemma named_of_parseFitPath {text : String} {location : Location}
    (h : parseFitPath text = some segs)
    (hmatch : List.Forall₂ Step.Matches location segs) : location.Named := by
  unfold parseFitPath at h
  split_ifs at h
  obtain ⟨⟨name, rest, rfl⟩, hnames⟩ := parseFitFields_spec h
  refine ⟨?_, fun field hfield => hnames field ?_⟩
  · cases hmatch with
    | cons hstep _ =>
      cases hstep
      exact ⟨name, _, rfl⟩
  · clear hnames h
    generalize FitPathSegment.field name :: rest = segs at hmatch ⊢
    induction hmatch with
    | nil => cases hfield
    | cons hstep _ ih =>
      rcases List.mem_cons.mp hfield with rfl | hmem
      · cases hstep
        exact List.mem_cons_self
      · exact List.mem_cons_of_mem _ (ih hmem)

/-! ### Fitting -/

section Fitting

variable {σ : Type} {input : Json}

/-- What a report entry says about its target. -/
inductive FitOmission.Faithful (input value : Json) (location : Location)
    (omission : FitOmission) : Prop
  /-- The rest of the records, without the oldest. -/
  | recent {removed kept : List Json} (hstrategy : omission.strategy = .recent)
      (hbefore : input.at? location = some (.array (removed ++ kept)))
      (hafter : value.at? location = some (.array kept)) (hremoved : removed ≠ [])
      (hkept : kept ≠ []) (horiginal : omission.originalCount = (removed ++ kept).length)
      (hretained : omission.retainedCount = kept.length)
  /-- The ends of the text, around the marker. -/
  | truncate {start omitted rest : String} (hstrategy : omission.strategy = .truncate)
      (hbefore : input.at? location = some (.string (start ++ omitted ++ rest)))
      (hafter : value.at? location = some (.string (start ++ OMISSION_MARKER ++ rest)))
      (horiginal : omission.originalCount = (start ++ omitted ++ rest).utf8ByteSize)
      (hretained : omission.retainedCount = start.utf8ByteSize + rest.utf8ByteSize)
      (hminimum : MINIMUM_TEXT_BYTES ≤ omission.retainedCount)

/-- The report says everything that fitting removed: each entry names one place, what
happened there, and nothing else is different. -/
structure FaithfulReport (input value : Json) (report : FitReport) : Prop where
  entries : ∃ place : String → Location,
    (∀ omission ∈ report.omissions, (place omission.path).report = omission.path ∧
      omission.Faithful input value (place omission.path)) ∧
    ∀ location, (∀ omission ∈ report.omissions,
      Location.Diverges location (place omission.path)) → value.at? location = input.at? location
  nodup : (report.omissions.map (·.path)).Nodup

lemma Planned.fits {rules : List FitRule} {targets : List FitTarget} {added : List Placed}
    (h : Planned input rules targets added) :
    Fits (added.map (·.1)) input input {} added := by
  have hidle : ∀ placed ∈ added, ¬ placed.2.Reduced := by
    intro placed hmem
    rw [FitTarget.Reduced, (h.fresh placed hmem).1.retained]
    exact Nat.lt_irrefl _
  refine ⟨rfl, fun placed hmem => (h.fresh placed hmem).1.pointer,
    fun placed hmem => (h.fresh placed hmem).1.path, fun placed hmem => ?_, fun _ _ => rfl,
    fun _ => ⟨fun omission => ?_, List.nodup_nil⟩⟩
  · obtain ⟨value, hvalue, hcount⟩ := (h.fresh placed hmem).1.value
    refine ⟨value, value, hvalue, hvalue, .same rfl hcount (h.fresh placed hmem).1.retained ?_⟩
    intro text htext
    rw [(h.fresh placed hmem).1.text] at htext
    cases htext
  · constructor
    · intro hmem
      cases hmem
    · rintro ⟨placed, hmem, hreduced, -⟩
      exact absurd hreduced (hidle placed hmem)

variable (input) in
lemma fitInputWithWorkBudget_spec (rules : List FitRule) (work : FittingWorkBudget)
    (validate : FitValidator σ) (validator : σ) :
    (∃ error, (fitInputWithWorkBudget input rules work validate validator).outcome =
      .failed error) ∨
    ∃ expansion added, Planned input rules expansion added ∧
      GoodExit validate (added.map (·.1)) input
        (fitInputWithWorkBudget input rules work validate validator) := by
  unfold fitInputWithWorkBudget
  split
  · exact .inl ⟨_, rfl⟩
  split
  · exact .inl ⟨_, rfl⟩
  · rename_i work' _
    dsimp only
    split
    · exact .inl ⟨_, rfl⟩
    · rename_i expansion hexpan
      cases hrules : checkCount .fitRules rules.length MAX_FIT_RULES with
      | error error =>
        rw [hrules] at hexpan
        cases hexpan
      | ok _ =>
        rw [hrules] at hexpan
        obtain ⟨added, hadded⟩ := expandRules_spec
          (show Planned input [] ({} : Expansion).targets [] from
            ⟨rfl, fun _ hmem => absurd hmem List.not_mem_nil, .nil⟩) hexpan
        refine .inr ⟨expansion.targets, added, hadded, ?_⟩
        have hfits := hadded.fits
        rcases validateRequest_spec validate { input, work := work', validator } with
          ⟨exit, error, hvali, houtcome⟩ | ⟨accepted, state, hvali, hstate, haccepted⟩
        · rw [hvali]
          exact .failed houtcome
        · rw [hvali]
          have hfits' : Fits (added.map (·.1)) input state.input state.report added := by
            rw [hstate.input, hstate.report]
            exact hfits
          cases accepted with
          | true => exact .fitted rfl hfits' (haccepted rfl _)
          | false =>
            rw [hadded.targets]
            refine fitRounds_spec hadded.apart hfits' ?_ ?_
            · rw [hstate.turns]
              exact Nat.zero_le _
            · rw [hstate.turns]
              show MAX_FIT_TURNS < 0 + (MAX_FIT_TURNS + 1)
              omega

lemma faithfulReport_of_fits {rules : List FitRule} {targets : List FitTarget}
    {added placed : List Placed} {value : Json} {report : FitReport}
    (hparsed : ∀ rule ∈ rules, ∃ text, parseFitPath text = some rule.segments)
    (hplanned : Planned input rules targets added)
    (hfits : Fits (added.map (·.1)) input value report placed) :
    FaithfulReport input value report := by
  have hnamed : ∀ location ∈ added.map (·.1), Location.Named location := by
    intro location hmem
    obtain ⟨p, hp, rfl⟩ := List.mem_map.mp hmem
    obtain ⟨-, rule, hrule, hmatch⟩ := hplanned.fresh p hp
    obtain ⟨text, htext⟩ := hparsed rule hrule
    exact named_of_parseFitPath htext hmatch
  have hpaths : ((added.map (·.1)).map Location.report).Nodup := by
    refine List.Nodup.map_on (fun a ha b hb heq => ?_) ?_
    · exact report_injective (hnamed a ha) (hnamed b hb) heq
    · refine hplanned.apart.imp fun hdiverges heq => ?_
      exact hdiverges.1 (heq ▸ List.prefix_refl _)
  obtain ⟨hlisted, hnodup⟩ := hfits.reported hpaths
  -- the place of a path is the location of the target that reports it
  let place (path : String) : Location :=
    ((placed.find? fun p => p.2.path == path).map (·.1)).getD []
  have hplace : ∀ p ∈ placed, place p.2.path = p.1 := by
    intro p hp
    have hsome : (placed.find? fun q => q.2.path == p.2.path).isSome := by
      rw [List.find?_isSome]
      exact ⟨p, hp, beq_self_eq_true _⟩
    obtain ⟨q, hq⟩ := Option.isSome_iff_exists.mp hsome
    have hqpath := List.find?_some hq
    have hqmem := List.mem_of_find?_eq_some hq
    have hmem : ∀ r ∈ placed, r.1 ∈ added.map (·.1) := by
      intro r hr
      rw [← hfits.locations_eq]
      exact List.mem_map_of_mem hr
    show ((placed.find? fun q => q.2.path == p.2.path).map (·.1)).getD [] = p.1
    rw [hq]
    show q.1 = p.1
    refine report_injective (hnamed _ (hmem q hqmem)) (hnamed _ (hmem p hp)) ?_
    rw [← hfits.path q hqmem, ← hfits.path p hp]
    exact eq_of_beq hqpath
  refine ⟨⟨place, fun omission homission => ?_, fun location hloc => ?_⟩, hnodup⟩
  · obtain ⟨p, hp, hreduced, rfl⟩ := (hlisted omission).mp homission
    have hpath : place p.2.omission.path = p.1 := hplace p hp
    rw [hpath]
    refine ⟨(hfits.path p hp).symm, ?_⟩
    obtain ⟨before, after, hbefore, hafter, haligned⟩ := hfits.aligned p hp
    cases haligned with
    | same _ _ hretained _ => exact absurd hretained (Nat.ne_of_lt hreduced)
    | recent hstrategy hb ha hremoved hkept horiginal hretained =>
      exact .recent hstrategy (hb ▸ hbefore) (ha ▸ hafter) hremoved hkept horiginal hretained
    | truncate hstrategy hb ha _ _ horiginal hretained hminimum =>
      exact .truncate hstrategy (hb ▸ hbefore) (ha ▸ hafter) horiginal hretained hminimum
  · refine hfits.elsewhere location fun p hp hreduced => ?_
    have hdiverges := hloc p.2.omission ((hlisted _).mpr ⟨p, hp, hreduced, rfl⟩)
    have hpath : place p.2.omission.path = p.1 := hplace p hp
    rw [hpath] at hdiverges
    exact hdiverges

/-- **Fitting is faithful.**  It never loses a target; and over rules whose paths were
parsed, an accepted request differs from the input as its report says. -/
theorem fitInput_faithful (input : Json) (rules : List FitRule)
    (validate : σ → Json → FitReport → Except FitValidationError Unit × σ) (validator : σ) :
    (fitInput input rules validate validator).outcome ≠ .panicked ∧
    (fitInput input rules validate validator).outcome ≠ .unfinished ∧
    ((∀ rule ∈ rules, ∃ text, parseFitPath text = some rule.segments) →
      ∀ value report, (fitInput input rules validate validator).outcome = .fitted value report →
        FaithfulReport input value report ∧
          ∃ state, validate state value report =
            (.ok (), (fitInput input rules validate validator).validator)) := by
  have hspec := fitInputWithWorkBudget_spec input rules {}
    (fun validator work input report =>
      ((validate validator input report).1, work, (validate validator input report).2)) validator
  change (∃ error, (fitInput input rules validate validator).outcome = .failed error) ∨
    ∃ expansion added, Planned input rules expansion added ∧
      GoodExit _ (added.map (·.1)) input (fitInput input rules validate validator) at hspec
  generalize fitInput input rules validate validator = exit at hspec ⊢
  have hfailed {error : PreparationFailure} (houtcome : exit.outcome = .failed error) :
      exit.outcome ≠ .panicked ∧ exit.outcome ≠ .unfinished ∧
        ∀ value report, exit.outcome ≠ .fitted value report := by
    rw [houtcome]
    exact ⟨nofun, nofun, nofun⟩
  rcases hspec with ⟨error, houtcome⟩ | ⟨targets, added, hplanned, hexit⟩
  · obtain ⟨hpanicked, hunfinished, hfitted⟩ := hfailed houtcome
    exact ⟨hpanicked, hunfinished, fun _ value report h => absurd h (hfitted value report)⟩
  · cases hexit with
    | failed houtcome =>
      obtain ⟨hpanicked, hunfinished, hfitted⟩ := hfailed houtcome
      exact ⟨hpanicked, hunfinished, fun _ value report h => absurd h (hfitted value report)⟩
    | fitted houtcome hfits haccepted =>
      rw [houtcome]
      refine ⟨nofun, nofun, fun hparsed value report h => ?_⟩
      injection h with hvalue hreport
      subst hvalue hreport
      refine ⟨faithfulReport_of_fits hparsed hplanned hfits, ?_⟩
      obtain ⟨state, work, haccept⟩ := haccepted
      refine ⟨state, ?_⟩
      injection haccept with hresult hrest
      injection hrest with _ hvalidator
      exact Prod.ext hresult hvalidator

end Fitting

/-! ### Two runs -/

/-- Rejects as many requests as its state says, then accepts. -/
def acceptAfter (rejections : Nat) (_ : Json) (_ : FitReport) :
    Except FitValidationError Unit × Nat :=
  if rejections = 0 then (.ok (), 0)
  else (.error (.overBudget ⟨.requestBytes, 2, 1⟩), rejections - 1)

def twoRecords : Json := .array [.null, .bool true]

def recordCount : Option Json → Option Nat
  | some (.array items) => some items.length
  | _ => none

/-- Whether a run was accepted with this report and these counts at these places. -/
def fittedTo (report : FitReport) (counts : List (Location × Nat)) : FitOutcome → Bool
  | .fitted value reported => decide (reported = report) &&
      counts.all fun (location, count) => recordCount (value.at? location) == some count
  | _ => false

lemma fittedTo_eq_true {report : FitReport} {counts : List (Location × Nat)}
    {outcome : FitOutcome} (h : fittedTo report counts outcome = true) :
    ∃ value, outcome = .fitted value report ∧
      ∀ entry ∈ counts, recordCount (value.at? entry.1) = some entry.2 := by
  cases outcome with
  | fitted value reported =>
    simp only [fittedTo, Bool.and_eq_true, decide_eq_true_eq, List.all_eq_true, beq_iff_eq] at h
    obtain ⟨rfl, hcounts⟩ := h
    exact ⟨value, rfl, hcounts⟩
  | failed | panicked | unfinished => cases h

/-- A parsed rule, whose target loses its oldest record. -/
theorem fitInput_faithful_records :
    ∃ value report,
      (fitInput (.object [("notes", twoRecords)]) [⟨"notes", [.field "notes"], .recent⟩]
        acceptAfter 1).outcome = .fitted value report ∧
      FaithfulReport (.object [("notes", twoRecords)]) value report := by
  have hrun : fittedTo ⟨[⟨"notes", .recent, 2, 1⟩]⟩ []
      (fitInput (.object [("notes", twoRecords)]) [⟨"notes", [.field "notes"], .recent⟩]
        acceptAfter 1).outcome = true := by
    decide +kernel
  obtain ⟨value, houtcome, -⟩ := fittedTo_eq_true hrun
  have hparsed : ∀ rule ∈ [(⟨"notes", [.field "notes"], .recent⟩ : FitRule)],
      ∃ text, parseFitPath text = some rule.segments := by
    intro rule hrule
    rw [List.mem_singleton.mp hrule]
    exact ⟨"notes", by decide⟩
  obtain ⟨-, -, hfaithful⟩ := fitInput_faithful (.object [("notes", twoRecords)])
    [⟨"notes", [.field "notes"], .recent⟩] acceptAfter 1
  exact ⟨value, _, houtcome, (hfaithful hparsed value _ houtcome).1⟩

/-- An input with a field whose name holds a dot. -/
def dottedInput : Json := .object [("a", .object [("b", twoRecords)]), ("a.b", twoRecords)]

/-- Rules that no path parses to: the first names one field with a dot. -/
def dottedRules : List FitRule :=
  [⟨"a.b", [.field "a.b"], .recent⟩, ⟨"a.b", [.field "a", .field "b"], .recent⟩]

/-- Two targets that report one path share an entry of the report. -/
theorem not_faithfulReport_dotted :
    ∃ value report, (fitInput dottedInput dottedRules acceptAfter 2).outcome =
        .fitted value report ∧ ¬ FaithfulReport dottedInput value report := by
  have hrun : fittedTo ⟨[⟨"a.b", .recent, 2, 1⟩]⟩
      [([.key "a.b"], 1), ([.key "a", .key "b"], 1)]
      (fitInput dottedInput dottedRules acceptAfter 2).outcome = true := by
    decide +kernel
  obtain ⟨value, houtcome, hcounts⟩ := fittedTo_eq_true hrun
  refine ⟨value, _, houtcome, fun hfaithful => ?_⟩
  obtain ⟨place, hentries, helsewhere⟩ := hfaithful.entries
  have hchanged : ∀ location : Location,
      recordCount (value.at? location) ≠ recordCount (dottedInput.at? location) →
        ¬ Location.Diverges location (place "a.b") := by
    intro location hne hdiverges
    refine hne (congrArg recordCount (helsewhere location fun omission homission => ?_))
    rw [List.mem_singleton.mp homission]
    exact hdiverges
  have hfirst := hchanged [.key "a.b"] (by
    rw [hcounts ([.key "a.b"], 1) List.mem_cons_self]
    decide +kernel)
  have hsecond := hchanged [.key "a", .key "b"] (by
    rw [hcounts ([.key "a", .key "b"], 1) (List.mem_cons_of_mem _ List.mem_cons_self)]
    decide)
  have hreport := (hentries _ List.mem_cons_self).1
  -- only the root is related to both places, and its path is empty
  cases hplace : place "a.b" with
  | nil =>
    have hreport : (place "a.b").report = "a.b" := hreport
    rw [hplace] at hreport
    exact absurd hreport (by decide)
  | cons step rest =>
    rw [hplace] at hfirst hsecond
    have hstep (name : String) (tail : Location)
        (h : ¬ Location.Diverges (.key name :: tail) (step :: rest)) : step = .key name := by
      by_contra hne
      refine h ⟨fun hpre => ?_, fun hpre => ?_⟩
      · exact hne (List.cons_prefix_cons.mp hpre).1.symm
      · exact hne (List.cons_prefix_cons.mp hpre).1
    have heq := (hstep "a.b" [] hfirst).symm.trans (hstep "a" [.key "b"] hsecond)
    exact absurd heq (by decide)

end Antiburn
