/-
What a repository glob matches.

`SegmentMatched` and `PathMatched` say it in the words of the authors of patterns:
`*` is any run of characters of one segment, `?` is one character, `**` any run of
segments.  The two rows of `RepositoryGlob.matches`, one over segments and one over
characters, decide them; each is an instance of the rows of wildcard patterns.
-/
import Antiburn.Filters
import Antiburn.Lib.Wildcard

namespace Antiburn

/-! ### Accepted patterns -/

def EXTENDED_SYNTAX : List String := ["@(", "!(", "?(", "*(", "+("]

/-- Rejects unsupported syntax before a definition can activate. -/
def RepositoryGlob.parse (pattern : String) : Except String RepositoryGlob :=
  let text := pattern.toList
  if !isRepositoryPath pattern ||
      text.any (fun c => c == '[' || c == ']' || c == '\x7b' || c == '\x7d') ||
      EXTENDED_SYNTAX.any (fun syntax' => decide (syntax'.toList <:+: text)) ||
      (splitChars '/' text).any (fun segment =>
        decide (['*', '*'] <:+: segment) && segment != ['*', '*']) then
    .error "Use a repository-relative pattern with / separators, *, ?, and whole ** segments."
  else .ok ⟨pattern⟩

/-! ### The definition -/

inductive SegmentMatched : List Char → List Char → Prop
  | nil : SegmentMatched [] []
  | anyRun {pattern rest : List Char} (run : List Char) (h : SegmentMatched pattern rest) :
      SegmentMatched ('*' :: pattern) (run ++ rest)
  | anyChar {pattern rest : List Char} (c : Char) (h : SegmentMatched pattern rest) :
      SegmentMatched ('?' :: pattern) (c :: rest)
  | char {pattern rest : List Char} {c : Char} (hrun : c ≠ '*') (hany : c ≠ '?')
      (h : SegmentMatched pattern rest) : SegmentMatched (c :: pattern) (c :: rest)

inductive PathMatched : List (List Char) → List (List Char) → Prop
  | nil : PathMatched [] []
  | anySegments {pattern rest : List (List Char)} (run : List (List Char))
      (h : PathMatched pattern rest) : PathMatched (['*', '*'] :: pattern) (run ++ rest)
  | segment {pattern rest : List (List Char)} {segment value : List Char}
      (hrun : segment ≠ ['*', '*']) (hvalue : SegmentMatched segment value)
      (h : PathMatched pattern rest) : PathMatched (segment :: pattern) (value :: rest)

/-! ### Characters of a segment -/

def anyRunToken (token : Char) : Bool := token == '*'

def acceptsChar (token c : Char) : Bool := token == '?' || token == c

lemma segmentMatched_iff {pattern value : List Char} :
    SegmentMatched pattern value ↔ Wildcard.Takes anyRunToken acceptsChar pattern value := by
  constructor
  · intro h
    induction h with
    | nil => exact .nil
    | anyRun run _ ih => exact .run run rfl ih
    | anyChar c _ ih => exact .letter rfl rfl ih
    | char hrun hany _ ih =>
      refine .letter (beq_eq_false_iff_ne.mpr hrun) ?_ ih
      rw [acceptsChar, beq_self_eq_true, Bool.or_true]
  · intro h
    induction h with
    | nil => exact .nil
    | run skipped hwild _ ih =>
      obtain rfl := beq_iff_eq.mp hwild
      exact .anyRun skipped ih
    | @letter token _ a _ hwild hacc _ ih =>
      rcases Bool.or_eq_true_iff.mp hacc with hany | hsame
      · obtain rfl := beq_iff_eq.mp hany
        exact .anyChar a ih
      · obtain rfl := beq_iff_eq.mp hsame
        by_cases hany : token = '?'
        · subst hany
          exact .anyChar _ ih
        · exact .char (beq_eq_false_iff_ne.mp hwild) hany ih

lemma segmentMatches_iff (pattern value : List Char) :
    segmentMatches pattern value = true ↔ SegmentMatched pattern value := by
  have hrow := Wildcard.row_foldl (@Wildcard.row_nil _ _ anyRunToken acceptsChar value) pattern
  rw [List.nil_append] at hrow
  rw [segmentMatched_iff, ← hrow.getLastD_eq_true]
  rfl

/-! ### Segments of a path -/

def anySegmentsToken (pattern : List Char) : Bool := pattern == ['*', '*']

lemma pathMatched_iff {pattern path : List (List Char)} :
    PathMatched pattern path ↔ Wildcard.Takes anySegmentsToken segmentMatches pattern path := by
  constructor
  · intro h
    induction h with
    | nil => exact .nil
    | anySegments run _ ih => exact .run run rfl ih
    | segment hrun hvalue _ ih =>
      exact .letter (beq_eq_false_iff_ne.mpr hrun) ((segmentMatches_iff _ _).mpr hvalue) ih
  · intro h
    induction h with
    | nil => exact .nil
    | run skipped hwild _ ih =>
      obtain rfl := beq_iff_eq.mp hwild
      exact .anySegments skipped ih
    | letter hwild hacc _ ih =>
      exact .segment (beq_eq_false_iff_ne.mp hwild) ((segmentMatches_iff _ _).mp hacc) ih

/-- **A repository glob matches what its definition says**: repository paths whose segments are
matched by the segments of the pattern. -/
theorem repository_globs_match_their_definition {pattern : String} {glob : RepositoryGlob}
    (h : RepositoryGlob.parse pattern = .ok glob) (path : String) :
    glob.matches path = true ↔
      isRepositoryPath path = true ∧
        PathMatched (splitChars '/' pattern.toList) (splitChars '/' path.toList) := by
  have hpattern : glob.pattern = pattern := by
    unfold RepositoryGlob.parse at h
    dsimp only at h
    split_ifs at h
    cases h
    rfl
  unfold RepositoryGlob.matches
  cases hpath : isRepositoryPath path with
  | false => simp
  | true =>
    have hrow := Wildcard.row_foldl (@Wildcard.row_nil _ _ anySegmentsToken segmentMatches
      (splitChars '/' path.toList)) (splitChars '/' pattern.toList)
    rw [List.nil_append] at hrow
    rw [pathMatched_iff, ← hrow.getLastD_eq_true, hpattern]
    exact ⟨fun htrue => ⟨rfl, htrue⟩, fun ⟨_, htrue⟩ => htrue⟩

theorem repository_globs_match_their_definition_rust :
    (RepositoryGlob.mk "src/**/*.rs").matches "src/a/b/lib.rs" = true ↔
      isRepositoryPath "src/a/b/lib.rs" = true ∧
        PathMatched (splitChars '/' "src/**/*.rs".toList)
          (splitChars '/' "src/a/b/lib.rs".toList) :=
  repository_globs_match_their_definition
    (show RepositoryGlob.parse "src/**/*.rs" = .ok ⟨"src/**/*.rs"⟩ by decide) _

end Antiburn
