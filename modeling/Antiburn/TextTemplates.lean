/-
Embedded expressions of a text.

A text with `${{` in it is split by two scanners: `find` looks for the next
opener, and `expression_end` looks for the closing braces and keeps its own
record of whether it stands inside a string literal.  The expression between
them is then read by the lexer, which has a string state of its own.
-/
import Antiburn.Access
import Antiburn.AsciiPlatform
import Antiburn.Lib.Except
import Mathlib

namespace Antiburn

/-! ### The compiler -/

structure SourceSpan where
  start : Nat
  stop : Nat
  line : Nat
  column : Nat
  endLine : Nat
  endColumn : Nat
  deriving DecidableEq

/-- A problem that the compiler reports at a configuration value. -/
structure Diagnostic where
  code : DiagnosticCode
  message : String
  span : SourceSpan
  configPath : String
  deriving DecidableEq

/-- A step of the compiler: it adds to the diagnostics, and yields nothing
where the value cannot be built. -/
abbrev CompileM := OptionT (StateM (List Diagnostic))

def report (diagnostic : Diagnostic) : CompileM Unit :=
  modify (· ++ [diagnostic])

/-- Where a value of the configuration stands, and what its expressions may use. -/
structure Place where
  span : SourceSpan
  path : String
  context : ExpressionContext

def invalidExpression (place : Place) (message : String) : CompileM Unit :=
  report ⟨.compileInvalidExpression, message, place.span, place.path⟩

section Expressions

variable [Platform] (validator : Validator) (place : Place)

/-- An expression that does not resolve is reported and kept. -/
def compileExpression (source : String) : CompileM Expression :=
  match parseExpression source with
  | .error e => do
    report ⟨e.code, e.message, place.span, place.path⟩
    failure
  | .ok expression => do
    match validator.resolveExpression place.context expression with
    | .error e => report ⟨e.code, e.message, place.span, place.path⟩
    | .ok _ => pure ()
    return expression

end Expressions

/-! ### The scanners -/

/-- Characters before the first `${{`. -/
def findOpener : List Char → Option Nat
  | '$' :: '{' :: '{' :: _ => some 0
  | _ :: rest => (findOpener rest).map (· + 1)
  | [] => none

/-- Characters before the first `}}` outside string literals. -/
def expressionEnd : (quoted : Bool) → (body : List Char) → Option Nat
  | true, '\'' :: '\'' :: rest => (expressionEnd true rest).map (· + 2)
  | quoted, '\'' :: rest => (expressionEnd (!quoted) rest).map (· + 1)
  | false, '}' :: '}' :: _ => some 0
  | quoted, _ :: rest => (expressionEnd quoted rest).map (· + 1)
  | _, [] => none

lemma expressionEnd_pair (rest : List Char) :
    expressionEnd true ('\'' :: '\'' :: rest) = (expressionEnd true rest).map (· + 2) := by
  rw [expressionEnd]

def wholeExpression (value : List Char) : Option (List Char) :=
  match value with
  | '$' :: '{' :: '{' :: body =>
    match expressionEnd false body with
    | some stop => if stop + 2 = body.length then some (body.take stop) else none
    | none => none
  | _ => none

lemma findOpener_lt : ∀ {text : List Char} {start : Nat}, findOpener text = some start →
    start < text.length := by
  intro text
  induction text using findOpener.induct with
  | case1 => simp [findOpener]
  | case2 c rest hne ih =>
    intro start h
    rw [findOpener.eq_2 _ _ hne] at h
    obtain ⟨n, hn, rfl⟩ := Option.map_eq_some_iff.mp h
    have := ih hn
    simp only [List.length_cons]
    omega
  | case3 => simp [findOpener]

section Split

variable [Platform] (validator : Validator) (place : Place)

def templateParts (remaining : List Char) : CompileM (List TemplatePart) :=
  match h : findOpener remaining with
  | none => pure (if remaining.isEmpty then [] else [.literal (String.ofList remaining)])
  | some start => do
    let literal := if 0 < start then [.literal (String.ofList (remaining.take start))] else []
    let body := remaining.drop (start + 3)
    match expressionEnd false body with
    | none =>
      invalidExpression place "Expression wrapper must end with `\x7d\x7d`."
      failure
    | some stop =>
      let part ← compileExpression validator place (String.ofList (body.take stop))
      let rest ← templateParts (body.drop (stop + 2))
      return literal ++ .expression part :: rest
termination_by remaining.length
decreasing_by
  have := findOpener_lt h
  simp only [List.length_drop]
  omega

def stringTemplate (text : String) : CompileM InputTemplate :=
  if findOpener text.toList = none then pure (.literal (.string text))
  else
    match wholeExpression text.toList with
    | some source => do
      let expression ← compileExpression validator place (String.ofList source)
      return .expression expression
    | none => do
      let parts ← templateParts validator place text.toList
      return .text parts

end Split

/-! ### Sources that the lexer accepts -/

inductive Quoted : List Char → Prop
  | nil : Quoted []
  | char {c body} : c ≠ '\'' → Quoted body → Quoted (c :: body)
  | pair {body} : Quoted body → Quoted ('\'' :: '\'' :: body)

/-- A character that neither scanner reacts to outside a string literal. -/
def Plain (c : Char) : Prop := c ≠ '\'' ∧ c ≠ '}'

inductive Lexable : List Char → Prop
  | nil : Lexable []
  | plain {c rest} : Plain c → Lexable rest → Lexable (c :: rest)
  | string {body rest} : Quoted body → rest.head? ≠ some '\'' → Lexable rest →
      Lexable ('\'' :: (body ++ '\'' :: rest))

lemma Lexable.append_word {word rest : List Char} (hword : ∀ c ∈ word, Plain c)
    (hrest : Lexable rest) : Lexable (word ++ rest) := by
  induction word with
  | nil => exact hrest
  | cons c word ih =>
    exact .plain (hword c List.mem_cons_self) (ih fun d hd => hword d (List.mem_cons_of_mem _ hd))

lemma lexString_spec (start : Nat) : ∀ (text value after : List Char),
    lexString start text = .ok (value, after) →
      ∃ body, Quoted body ∧ text = body ++ '\'' :: after ∧ after.head? ≠ some '\'' := by
  intro text
  induction text using lexString.induct with
  | case1 rest ih =>
    intro value after h
    rw [lexString] at h
    obtain ⟨⟨inner, left⟩, hinner, hreturn⟩ := Except.of_bind_ok h
    cases hreturn
    obtain ⟨body, hbody, rfl, hhead⟩ := ih _ _ hinner
    exact ⟨'\'' :: '\'' :: body, .pair hbody, rfl, hhead⟩
  | case2 rest hsingle =>
    intro value after h
    rw [lexString.eq_2 _ _ hsingle] at h
    cases h
    refine ⟨[], .nil, rfl, ?_⟩
    -- a second quote would have been read as a doubled one
    intro hhead
    cases rest with
    | nil => cases hhead
    | cons c tail =>
      obtain rfl : c = '\'' := Option.some.inj hhead
      exact hsingle tail rfl
  | case3 c rest hpair hquote ih =>
    intro value after h
    rw [lexString.eq_3 _ _ _ hpair hquote] at h
    obtain ⟨⟨inner, left⟩, hinner, hreturn⟩ := Except.of_bind_ok h
    cases hreturn
    obtain ⟨body, hbody, rfl, hhead⟩ := ih _ _ hinner
    refine ⟨c :: body, .char ?_ hbody, rfl, hhead⟩
    intro hc
    exact hquote hc
  | case4 =>
    intro value after h
    cases h

lemma plain_of {p : Char → Bool} (hquote : p '\'' = false) (hbrace : p '}' = false) {c : Char}
    (h : p c = true) : Plain c := by
  constructor
  · rintro rfl
    rw [hquote] at h
    cases h
  · rintro rfl
    rw [hbrace] at h
    cases h

lemma plain_of_isDigit {c : Char} (h : c.isDigit = true) : Plain c :=
  plain_of (by decide) (by decide) h

lemma plain_span (p : Char → Bool) (hp : ∀ c, p c = true → Plain c) {text word rest : List Char}
    (h : text.span p = (word, rest)) : text = word ++ rest ∧ ∀ c ∈ word, Plain c := by
  rw [List.span_eq_takeWhile_dropWhile] at h
  cases h
  refine ⟨List.takeWhile_append_dropWhile.symm, ?_⟩
  intro c hc
  exact hp c (List.mem_takeWhile_imp hc)

/-- A step of `lexNumber`: it takes plain characters from the head of the text. -/
def TakesPlain (text word rest : List Char) : Prop := text = word ++ rest ∧ ∀ c ∈ word, Plain c

lemma TakesPlain.append {text w₁ middle w₂ rest : List Char} (h₁ : TakesPlain text w₁ middle)
    (h₂ : TakesPlain middle w₂ rest) : TakesPlain text (w₁ ++ w₂) rest := by
  obtain ⟨rfl, hw₁⟩ := h₁
  obtain ⟨rfl, hw₂⟩ := h₂
  exact ⟨(List.append_assoc ..).symm, List.forall_mem_append.mpr ⟨hw₁, hw₂⟩⟩

lemma lexNumber_spec {start : Nat} {c : Char} {rest digits after : List Char}
    (hstart : c.isDigit = true ∨ c = '-') (h : lexNumber start (c :: rest) = .ok (digits, after)) :
    digits ≠ [] ∧ TakesPlain (c :: rest) digits after := by
  unfold lexNumber at h
  split at h
  rename_i sign text₁ hsign
  split at h
  rename_i integer text₂ hint
  have hs : TakesPlain (c :: rest) sign text₁ := by
    split at hsign
    · rename_i heq
      cases hsign
      exact ⟨heq, by simp [Plain]⟩
    · cases hsign
      exact ⟨rfl, by simp⟩
  have hne : sign ++ integer ≠ [] := by
    split at hsign
    · cases hsign
      exact List.cons_ne_nil _ _
    · rename_i hminus
      cases hsign
      have hdigit : c.isDigit = true := hstart.resolve_right fun hc => hminus _ (by rw [hc])
      split at hint
      · cases hint
        exact List.cons_ne_nil _ _
      · intro hnil
        obtain rfl : integer = [] := hnil
        rw [List.span_eq_takeWhile_dropWhile, List.takeWhile_cons_of_pos hdigit] at hint
        cases hint
  have hi : TakesPlain text₁ integer text₂ := by
    split at hint
    · cases hint
      exact ⟨rfl, by simp [Plain]⟩
    · exact plain_span _ (fun c => plain_of_isDigit) hint
  extract_lets finish at h
  -- the exponent and the end of the number, behind any fraction
  have hfinish : ∀ fraction text₃, TakesPlain text₂ fraction text₃ →
      finish (fraction, text₃) = .ok (digits, after) →
        digits ≠ [] ∧ TakesPlain (c :: rest) digits after := by
    intro fraction text₃ hf hdone
    have htaken := (hs.append hi).append hf
    have hend : ∀ exponent text₄, TakesPlain text₃ exponent text₄ →
        (pure (sign ++ integer ++ fraction ++ exponent, text₄) : Except ExpressionError _) =
          .ok (digits, after) → digits ≠ [] ∧ TakesPlain (c :: rest) digits after := by
      intro exponent text₄ he hdone
      cases hdone
      refine ⟨?_, htaken.append he⟩
      intro hnil
      simp only [List.append_eq_nil_iff] at hnil
      exact hne (List.append_eq_nil_iff.mpr hnil.1.1)
    simp only [finish] at hdone
    split at hdone
    · rename_i e rest
      split at hdone
      · rename_i hletter
        have he : TakesPlain (e :: rest) [e] rest := by
          refine ⟨rfl, ?_⟩
          rcases Bool.or_eq_true_iff.mp hletter with hletter | hletter <;>
          · rw [beq_iff_eq] at hletter
            simp [Plain, hletter]
        split at hdone
        · cases hdone
        · rename_i ds left _ hspan
          have hds := plain_span _ (fun c => plain_of_isDigit) hspan
          refine hend _ _ ((he.append ?_).append hds) hdone
          -- a sign is taken when there is one
          split
          · split
            · rename_i s tail hmark
              refine ⟨rfl, ?_⟩
              rcases Bool.or_eq_true_iff.mp hmark with hmark | hmark <;>
              · rw [beq_iff_eq] at hmark
                simp [Plain, hmark]
            · exact ⟨rfl, by simp⟩
          · exact ⟨rfl, by simp⟩
      · exact hend _ _ ⟨rfl, by simp⟩ hdone
    · exact hend _ _ ⟨rfl, by simp⟩ hdone
  split at h
  · rename_i rest
    split at h
    · cases h
    · rename_i ds left _ hspan
      have hdot : TakesPlain ('.' :: rest) ['.'] rest := ⟨rfl, by simp [Plain]⟩
      exact hfinish _ _ (hdot.append (plain_span _ (fun c => plain_of_isDigit) hspan)) h
  · exact hfinish _ _ ⟨rfl, by simp⟩ h

section Tokens

variable [Platform]

lemma lexToken_spec {offset : Nat} {c : Char} {rest after : List Char} {kind : TokenKind}
    (h : lexToken offset (c :: rest) = .ok (kind, after)) :
    (∃ word, word ≠ [] ∧ TakesPlain (c :: rest) word after) ∨
      ∃ body, Quoted body ∧ c :: rest = '\'' :: (body ++ '\'' :: after) ∧
        after.head? ≠ some '\'' := by
  unfold lexToken at h
  split at h
  case h_17 rest' heq =>
    obtain ⟨⟨value, left⟩, hvalue, hreturn⟩ := Except.of_bind_ok h
    cases hreturn
    obtain ⟨body, hbody, rfl, hhead⟩ := lexString_spec _ _ _ _ hvalue
    exact .inr ⟨body, hbody, heq, hhead⟩
  case h_18 c' rest' _ _ _ _ _ _ _ _ _ _ _ _ _ _ _ _ _ heq =>
    cases heq
    left
    split at h
    · rename_i hnumber
      obtain ⟨⟨digits, left⟩, hdigits, hreturn⟩ := Except.of_bind_ok h
      have hstart : c.isDigit = true ∨ c = '-' := by
        rcases Bool.or_eq_true_iff.mp hnumber with hdigit | hminus
        · exact .inl hdigit
        · exact .inr (beq_iff_eq.mp (Bool.and_eq_true_iff.mp hminus).1)
      have htaken := lexNumber_spec hstart hdigits
      dsimp only at hreturn
      split at hreturn
      · cases hreturn
        exact ⟨digits, htaken⟩
      · cases hreturn
    · split at h
      · rename_i hletter
        cases hspan : rest.span isIdentifierRest with
        | mk name left =>
          rw [hspan] at h
          cases h
          obtain ⟨rfl, hname⟩ := plain_span _ (fun d => plain_of (by decide) (by decide)) hspan
          refine ⟨c :: name, List.cons_ne_nil _ _, rfl, ?_⟩
          exact List.forall_mem_cons.mpr ⟨plain_of (by decide) (by decide) hletter, hname⟩
      · cases h
  case h_19 heq => cases heq
  all_goals
    cases h
    rename_i heq
    cases heq
    left
    first
    | refine ⟨[_, _], List.cons_ne_nil _ _, rfl, ?_⟩
      simp [Plain]
    | refine ⟨[_], List.cons_ne_nil _ _, rfl, ?_⟩
      simp [Plain]

lemma lexable_of_lexFrom : ∀ (fuel offset : Nat) (text : List Char) (tokens : List Token),
    text.length ≤ fuel → lexFrom fuel offset text = .ok tokens → Lexable text := by
  intro fuel
  induction fuel with
  | zero =>
    intro offset text tokens hlen h
    obtain rfl : text = [] := List.eq_nil_of_length_eq_zero (by omega)
    exact .nil
  | succ fuel ih =>
    intro offset text tokens hlen h
    cases text with
    | nil => exact .nil
    | cons c rest =>
      rw [List.length_cons] at hlen
      rw [lexFrom] at h
      split at h
      · rename_i hspace
        exact .plain (plain_of (by decide) (by decide) hspace) (ih _ _ _ (by omega) h)
      · obtain ⟨⟨kind, after⟩, htoken, hafter⟩ := Except.of_bind_ok h
        obtain ⟨others, hothers, -⟩ := Except.of_bind_ok hafter
        -- the token takes at least one character
        rcases lexToken_spec htoken with ⟨word, hne, htext, hword⟩ | ⟨body, hbody, htext, hhead⟩
        · have hlt : 0 < word.length := List.length_pos_of_ne_nil hne
          have hsum := congrArg List.length htext
          rw [List.length_cons, List.length_append] at hsum
          rw [htext]
          exact Lexable.append_word hword (ih _ _ _ (by omega) hothers)
        · have hsum := congrArg List.length htext
          simp only [List.length_cons, List.length_append] at hsum
          rw [htext]
          exact .string hbody hhead (ih _ _ _ (by omega) hothers)

lemma lexable_of_lex {source : String} {tokens : List Token} (h : lex source = .ok tokens) :
    Lexable source.toList :=
  lexable_of_lexFrom _ _ _ _ (Nat.le_refl _) h

end Tokens

/-! ### The end of an expression -/

lemma expressionEnd_plain {c : Char} (hc : Plain c) (rest : List Char) :
    expressionEnd false (c :: rest) = (expressionEnd false rest).map (· + 1) := by
  rw [expressionEnd.eq_4]
  · intro h
    exact hc.1 h
  · intro _ _ h _
    exact hc.1 h
  · intro _ _ h _
    exact hc.2 h

lemma Quoted.expressionEnd_append {body rest : List Char} (hbody : Quoted body)
    (hrest : rest.head? ≠ some '\'') :
    expressionEnd true (body ++ '\'' :: rest) =
      (expressionEnd false rest).map (· + (body.length + 1)) := by
  induction hbody with
  | nil =>
    rw [List.nil_append, expressionEnd.eq_2]
    · rfl
    · intro rest' _ h
      rw [h] at hrest
      exact hrest rfl
  | char hc _ ih =>
    rw [List.cons_append, expressionEnd.eq_4, ih, Option.map_map]
    · rfl
    · intro h
      exact hc h
    · intro _ _ h _
      exact hc h
    · intro _ h
      cases h
  | pair _ ih =>
    rw [List.cons_append, List.cons_append, expressionEnd_pair, ih, Option.map_map]
    rfl

lemma Lexable.expressionEnd_append {source : List Char} (h : Lexable source) (rest : List Char) :
    expressionEnd false (source ++ '}' :: '}' :: rest) = some source.length := by
  induction h with
  | nil => rfl
  | plain hc _ ih =>
    rw [List.cons_append, expressionEnd_plain hc, ih]
    rfl
  | @string body tail hbody hhead _ ih =>
    have hhead' : (tail ++ '}' :: '}' :: rest).head? ≠ some '\'' := by
      cases tail with
      | nil =>
        intro h
        exact absurd (Option.some.inj h) (by decide)
      | cons c tail => exact hhead
    rw [List.cons_append, List.append_assoc, List.cons_append, expressionEnd.eq_2]
    · rw [Bool.not_false, hbody.expressionEnd_append hhead', ih]
      simp only [Option.map_some, List.length_cons, List.length_append]
      congr 1
      omega
    · intro _ h
      cases h

/-! ### The next opener -/

/-- The characters of `${{`. -/
def opener : List Char := ['$', '{', '{']

lemma findOpener_eq_none_iff {text : List Char} :
    findOpener text = none ↔ ¬ opener <:+: text := by
  induction text using findOpener.induct with
  | case1 rest =>
    refine iff_of_false (by simp [findOpener]) (not_not_intro ?_)
    exact ⟨[], rest, rfl⟩
  | case2 c rest hne ih =>
    rw [findOpener.eq_2 _ _ hne, Option.map_eq_none_iff, ih, List.infix_cons_iff]
    refine not_congr (or_iff_right ?_).symm
    rintro ⟨tail, htail⟩
    obtain ⟨rfl, rfl⟩ := List.cons.inj htail
    exact hne tail rfl rfl
  | case3 =>
    exact iff_of_true rfl (by simp [opener])

lemma findOpener_append {literal : List Char} (h : findOpener literal = none)
    (rest : List Char) : findOpener (literal ++ '$' :: '{' :: '{' :: rest) = some literal.length := by
  induction literal with
  | nil => rfl
  | cons c literal ih =>
    have hne : ∀ tail, c = '$' → literal = '{' :: '{' :: tail → False := by
      rintro tail rfl rfl
      cases h
    rw [findOpener.eq_2 _ _ hne, Option.map_eq_none_iff] at h
    rw [List.cons_append, findOpener.eq_2, ih h]
    · rfl
    · -- `$` and `${` at the end of the literal meet the `$` of the opener
      rintro tail rfl htail
      match literal with
      | [] => exact absurd (List.cons.inj htail).1 (by decide)
      | [d] =>
        obtain ⟨_, htail⟩ := List.cons.inj htail
        exact absurd (List.cons.inj htail).1 (by decide)
      | d :: e :: literal =>
        obtain ⟨rfl, hnext⟩ := List.cons.inj htail
        obtain ⟨rfl, -⟩ := List.cons.inj hnext
        exact hne literal rfl rfl

lemma wholeExpression_eq_none {text : List Char} (h : findOpener text ≠ some 0) :
    wholeExpression text = none := by
  unfold wholeExpression
  split
  · exact absurd rfl h
  · rfl

/-! ### Parts -/

inductive TextPart where
  | literal (text : String)
  | expression (source : String)
  deriving DecidableEq

namespace TextPart

def write : TextPart → List Char
  | literal text => text.toList
  | expression source => opener ++ source.toList ++ ['}', '}']

def isLiteral : TextPart → Bool
  | literal _ => true
  | expression _ => false

def written : TextPart → Bool
  | literal text => !text.isEmpty
  | expression _ => true

def writeAll (parts : List TextPart) : String :=
  String.ofList (parts.flatMap write)

variable [Platform] (validator : Validator) (place : Place)

def compile : TextPart → CompileM TemplatePart
  | literal text => pure (.literal text)
  | expression source => do
    let expression ← compileExpression validator place source
    return .expression expression

/-- What the compiler makes of a list of parts: a string for a literal alone, an
expression for an expression alone, else a text of these parts. -/
def compileAll : List TextPart → CompileM InputTemplate
  | [] => pure (.literal (.string ""))
  | [literal text] => pure (.literal (.string text))
  | [expression source] => do
    let expression ← compileExpression validator place source
    return .expression expression
  | parts => do
    let parts ← parts.mapM (compile validator place)
    return .text parts

end TextPart

/-- Parts that a text can hold side by side: literals are apart and have no
opener in them, and the lexer accepts the sources. -/
structure Writable [Platform] (parts : List TextPart) : Prop where
  apart : parts.IsChain fun a b => ¬(a.isLiteral = true ∧ b.isLiteral = true)
  literals : ∀ text, .literal text ∈ parts → ¬ opener <:+: text.toList
  sources : ∀ source, .expression source ∈ parts → ∃ tokens, lex source = .ok tokens

lemma wholeExpression_expression {source : List Char} (hsource : Lexable source)
    (rest : List Char) :
    wholeExpression (opener ++ source ++ ['}', '}'] ++ rest) =
      if rest = [] then some source else none := by
  have htext : opener ++ source ++ ['}', '}'] ++ rest =
      '$' :: '{' :: '{' :: (source ++ '}' :: '}' :: rest) := by
    simp [opener]
  rw [htext, wholeExpression, hsource.expressionEnd_append rest]
  simp only [List.length_append, List.length_cons, List.take_left]
  by_cases hrest : rest = []
  · rw [if_pos hrest, if_pos (by rw [hrest, List.length_nil])]
  · have hlen : 0 < rest.length := List.length_pos_of_ne_nil hrest
    rw [if_neg hrest, if_neg (by omega)]

lemma write_ne_nil {part : TextPart} (h : part.written = true) : part.write ≠ [] := by
  cases part with
  | literal text => simpa [TextPart.written, TextPart.write] using h
  | expression source => simp [TextPart.write, opener]

lemma flatMap_write_filter (parts : List TextPart) :
    (parts.filter TextPart.written).flatMap TextPart.write = parts.flatMap TextPart.write := by
  induction parts with
  | nil => rfl
  | cons part parts ih =>
    rw [List.filter_cons]
    split
    · rw [List.flatMap_cons, List.flatMap_cons, ih]
    · rename_i hunwr
      rw [List.flatMap_cons, ih]
      cases part with
      | literal text =>
        have hempty : text = "" := by simpa [TextPart.written] using hunwr
        rw [hempty]
        rfl
      | expression source => exact absurd rfl hunwr

section SplitParts

variable [Platform] (validator : Validator) (place : Place)

lemma templateParts_literal {literal : List Char} (h : findOpener literal = none)
    (hne : literal ≠ []) :
    templateParts validator place literal = pure [.literal (String.ofList literal)] := by
  rw [templateParts]
  split
  · rw [if_neg]
    rw [List.isEmpty_iff]
    exact hne
  · rename_i start hstart
    rw [h] at hstart
    cases hstart

lemma templateParts_expression {literal source : List Char} (h : findOpener literal = none)
    (hsource : Lexable source) (rest : List Char) :
    templateParts validator place (literal ++ (opener ++ source ++ ['}', '}'] ++ rest)) =
      (do
        let part ← compileExpression validator place (String.ofList source)
        let others ← templateParts validator place rest
        return (if literal = [] then [] else [.literal (String.ofList literal)]) ++
          .expression part :: others) := by
  have htext : opener ++ source ++ ['}', '}'] ++ rest =
      '$' :: '{' :: '{' :: (source ++ '}' :: '}' :: rest) := by
    simp [opener]
  have hbody : ((literal ++ '$' :: '{' :: '{' :: (source ++ '}' :: '}' :: rest)).drop
      (literal.length + 3)) = source ++ '}' :: '}' :: rest := by
    rw [← List.drop_drop, List.drop_left]
    rfl
  have hrest : (source ++ '}' :: '}' :: rest).drop (source.length + 2) = rest := by
    rw [← List.drop_drop, List.drop_left]
    rfl
  rw [htext, templateParts]
  split
  · rename_i hnone
    rw [findOpener_append h] at hnone
    cases hnone
  · rename_i start hstart
    rw [findOpener_append h] at hstart
    cases hstart
    simp only [hbody, hsource.expressionEnd_append rest, List.take_left, hrest,
      List.length_pos_iff, ne_eq, ite_not]

variable {validator place}

variable {parts : List TextPart}

lemma Writable.tail {part : TextPart} (h : Writable (part :: parts)) :
    Writable parts where
  apart := h.apart.tail
  literals := fun text hmem => h.literals text (List.mem_cons_of_mem _ hmem)
  sources := fun source hmem => h.sources source (List.mem_cons_of_mem _ hmem)

lemma Writable.findOpener_literal {text : String}
    (h : Writable (.literal text :: parts)) : findOpener text.toList = none :=
  findOpener_eq_none_iff.mpr (h.literals text List.mem_cons_self)

lemma Writable.lexable_source {source : String}
    (h : Writable (.expression source :: parts)) : Lexable source.toList := by
  obtain ⟨tokens, htokens⟩ := h.sources source List.mem_cons_self
  exact lexable_of_lex htokens

lemma Writable.filter (h : Writable parts) :
    Writable (parts.filter TextPart.written) where
  apart := by
    have hapart := h.apart
    induction parts with
    | nil => exact List.isChain_nil
    | cons part parts ih =>
      have hrest := ih h.tail h.apart.tail
      rw [List.filter_cons]
      split
      · rw [List.isChain_cons]
        refine ⟨?_, hrest⟩
        intro next hnext hboth
        cases parts with
        | nil => cases hnext
        | cons second parts =>
          have hsecond : second.isLiteral = false := by
            have hfirst := (List.isChain_cons_cons.mp hapart).1
            simpa [hboth.1] using hfirst
          cases second with
          | literal text => cases hsecond
          | expression source =>
            cases hnext
            cases hboth.2
      · exact hrest
  literals := fun text hmem => h.literals text (List.mem_of_mem_filter hmem)
  sources := fun source hmem => h.sources source (List.mem_of_mem_filter hmem)

lemma templateParts_writeAll : ∀ (parts : List TextPart), Writable parts →
    (∀ part ∈ parts, part.written = true) →
    templateParts validator place (parts.flatMap TextPart.write) =
      parts.mapM (TextPart.compile validator place)
  | [], _, _ => by
    rw [List.flatMap_nil, templateParts]
    rfl
  | .expression source :: parts, h, hwrit => by
    have ih := templateParts_writeAll parts h.tail fun part hmem =>
      hwrit part (List.mem_cons_of_mem _ hmem)
    rw [List.flatMap_cons, List.mapM_cons, ← ih]
    have hstep := @templateParts_expression _ validator place [] _ rfl h.lexable_source
      (parts.flatMap TextPart.write)
    rw [List.nil_append] at hstep
    rw [TextPart.write, hstep]
    simp [TextPart.compile]
  | [.literal text], h, hwrit => by
    have hne : text.toList ≠ [] := by
      simpa [TextPart.written] using hwrit _ List.mem_cons_self
    rw [List.flatMap_cons, List.flatMap_nil, List.append_nil, TextPart.write,
      templateParts_literal validator place h.findOpener_literal hne]
    simp [TextPart.compile]
  | .literal text :: .expression source :: parts, h, hwrit => by
    have hne : text.toList ≠ [] := by
      simpa [TextPart.written] using hwrit _ List.mem_cons_self
    have ih := templateParts_writeAll parts h.tail.tail fun part hmem =>
      hwrit part (List.mem_cons_of_mem _ (List.mem_cons_of_mem _ hmem))
    rw [List.flatMap_cons, List.flatMap_cons, List.mapM_cons, List.mapM_cons, ← ih]
    rw [TextPart.write, TextPart.write, templateParts_expression validator place
      h.findOpener_literal h.tail.lexable_source]
    simp [TextPart.compile, hne]
  | .literal text :: .literal text' :: parts, h, _ => by
    exact absurd ⟨rfl, rfl⟩ (List.isChain_cons_cons.mp h.apart).1

lemma stringTemplate_of_parts {text : List Char} (hopen : findOpener text ≠ none)
    (hwhole : wholeExpression text = none) :
    stringTemplate validator place (String.ofList text) =
      (do
        let parts ← templateParts validator place text
        return .text parts) := by
  unfold stringTemplate
  rw [String.toList_ofList, if_neg hopen, hwhole]

lemma TextPart.compileAll_of_two (first second : TextPart) (parts : List TextPart) :
    compileAll validator place (first :: second :: parts) =
      (do
        let parts ← (first :: second :: parts).mapM (compile validator place)
        return .text parts) := by
  cases first <;> rfl

lemma stringTemplate_writeAll (parts : List TextPart) (h : Writable parts)
    (hwrit : ∀ part ∈ parts, part.written = true) :
    stringTemplate validator place (TextPart.writeAll parts) =
      TextPart.compileAll validator place parts := by
  have hparts := @templateParts_writeAll _ validator place parts h hwrit
  match parts with
  | [] => rfl
  | [.literal text] =>
    have hopen := h.findOpener_literal
    rw [TextPart.writeAll, List.flatMap_cons, List.flatMap_nil, List.append_nil, TextPart.write,
      String.ofList_toList, stringTemplate, if_pos hopen]
    rfl
  | [.expression source] =>
    have hwhole := wholeExpression_expression h.lexable_source []
    rw [List.append_nil, if_pos rfl] at hwhole
    rw [TextPart.writeAll, List.flatMap_cons, List.flatMap_nil, List.append_nil, TextPart.write,
      stringTemplate, String.toList_ofList, hwhole, if_neg (by simp [opener, findOpener])]
    simp only [String.ofList_toList]
    rfl
  | .expression source :: part :: parts =>
    have hrest : (part :: parts).flatMap TextPart.write ≠ [] := by
      have hw := hwrit part (List.mem_cons_of_mem _ List.mem_cons_self)
      rw [List.flatMap_cons]
      intro hnil
      exact write_ne_nil hw (List.append_eq_nil_iff.mp hnil).1
    have hwhole := wholeExpression_expression h.lexable_source
      ((part :: parts).flatMap TextPart.write)
    rw [if_neg hrest] at hwhole
    rw [TextPart.compileAll_of_two, ← hparts]
    exact stringTemplate_of_parts (by simp [TextPart.write, opener, findOpener]) hwhole
  | .literal text :: .expression source :: parts =>
    have htext : text.toList ≠ [] := write_ne_nil (hwrit _ List.mem_cons_self)
    have hopen : findOpener ((.literal text :: .expression source :: parts).flatMap
        TextPart.write) = some text.toList.length := by
      have happend := findOpener_append h.findOpener_literal
        (source.toList ++ ['}', '}'] ++ parts.flatMap TextPart.write)
      simpa [TextPart.write, opener] using happend
    have hpos : 0 < text.toList.length := List.length_pos_of_ne_nil htext
    rw [TextPart.compileAll_of_two, ← hparts]
    refine stringTemplate_of_parts ?_ (wholeExpression_eq_none ?_)
    · rw [hopen]
      exact Option.some_ne_none _
    · rw [hopen]
      intro hzero
      have := Option.some.inj hzero
      omega
  | .literal text :: .literal text' :: parts =>
    exact absurd ⟨rfl, rfl⟩ (List.isChain_cons_cons.mp h.apart).1

/-- Literals without an opener and sources that the lexer accepts, written side
by side, are compiled part by part: the split finds these parts, whatever the
string literals of the sources hold. -/
theorem text_templates_split (parts : List TextPart) (h : Writable parts) :
    stringTemplate validator place (TextPart.writeAll parts) =
      TextPart.compileAll validator place (parts.filter TextPart.written) := by
  have hsame : TextPart.writeAll parts = TextPart.writeAll (parts.filter TextPart.written) := by
    rw [TextPart.writeAll, TextPart.writeAll, flatMap_write_filter]
  rw [hsame]
  exact stringTemplate_writeAll _ h.filter fun part hmem => (List.mem_filter.mp hmem).2

end SplitParts

/-! ### A message with quotes and braces -/

/-- A status message whose literal ends in half an opener and whose expression
holds doubled quotes and closing braces in a string. -/
def quotedMessage : List TextPart :=
  [.literal "cost $\x7b", .expression "join('it''s \x7d\x7d''\x7d\x7d', x)", .literal "\x7d."]

def messagePlace : Place := ⟨⟨0, 0, 1, 1, 1, 1⟩, "do[0].input.message", .actionCondition⟩

def plainValidator : Validator := ⟨false, [], [], none⟩

theorem text_templates_split_quoted :
    @stringTemplate asciiPlatform plainValidator messagePlace (TextPart.writeAll quotedMessage) =
      @TextPart.compileAll asciiPlatform plainValidator messagePlace quotedMessage := by
  let platform := asciiPlatform
  refine @text_templates_split asciiPlatform plainValidator messagePlace quotedMessage ?_
  refine ⟨?_, ?_, ?_⟩
  · decide
  · intro text hmem
    simp only [quotedMessage, List.mem_cons, TextPart.literal.injEq, reduceCtorEq, false_or,
      List.not_mem_nil, or_false] at hmem
    refine findOpener_eq_none_iff.mp ?_
    rcases hmem with rfl | rfl <;> decide
  · intro source hmem
    simp only [quotedMessage, List.mem_cons, TextPart.expression.injEq, reduceCtorEq, false_or,
      List.not_mem_nil, or_false] at hmem
    obtain rfl := hmem
    rw [← Except.isOk_iff]
    decide

end Antiburn
