/-
The expression grammar.

The grammar is stratified: a binary expression of a precedence has a left side
of the same precedence and a right side of the next one.  A derivation assigns
the tree, the depth that the parser limits, and the levels of recursion that the
descent takes for it.
-/
import Antiburn.Expression

namespace Antiburn

/-! ### The grammar -/

namespace BinaryOperator

/-- Binding strength. -/
def precedence : BinaryOperator → Nat
  | or => 1
  | and => 2
  | equal | notEqual => 3
  | less | lessOrEqual | greater | greaterOrEqual => 4

def token : BinaryOperator → TokenKind
  | or => .or
  | and => .and
  | equal => .equal
  | notEqual => .notEqual
  | less => .less
  | lessOrEqual => .lessOrEqual
  | greater => .greater
  | greaterOrEqual => .greaterOrEqual

end BinaryOperator

def keyword : String → Option ExpressionLiteral
  | "true" => some (.boolean true)
  | "false" => some (.boolean false)
  | "null" => some .null
  | _ => none

/-- A primary expression with its access steps: fixed steps extend a path, and the first
step that cannot starts a chain with all that follow.  A chain in parentheses is a value
like any other, so a step behind it starts a chain of its own. -/
def attach : Expression → List AccessSegment → Expression
  | head, [] => head
  | .path names, .property name :: rest => attach (.path (names ++ [.property name])) rest
  | .path names, .index index :: rest => attach (.path (names ++ [.index index])) rest
  | head, segments => .access head segments

mutual

/-- Binary expressions of a precedence: their tokens, their tree with its depth, and the
levels of recursion. -/
inductive BinaryDerives : (minimum : Nat) → List TokenKind → ParsedExpression → Nat → Prop
  | unary {minimum levels : Nat} {tokens : List TokenKind} {value : ParsedExpression}
      (h : UnaryDerives tokens value levels) : BinaryDerives minimum tokens value (levels + 1)
  | binary {minimum leftLevels rightLevels : Nat} {leftTokens rightTokens : List TokenKind}
      {left right : ParsedExpression} (operator : BinaryOperator)
      (hprecedence : minimum ≤ operator.precedence)
      (hleft : BinaryDerives operator.precedence leftTokens left leftLevels)
      (hright : BinaryDerives (operator.precedence + 1) rightTokens right rightLevels) :
      BinaryDerives minimum (leftTokens ++ operator.token :: rightTokens)
        ⟨.binary operator left.expression right.expression, max left.depth right.depth + 1⟩
        (max leftLevels (rightLevels + 1))

inductive UnaryDerives : List TokenKind → ParsedExpression → Nat → Prop
  | not {levels : Nat} {tokens : List TokenKind} {value : ParsedExpression}
      (h : UnaryDerives tokens value levels) :
      UnaryDerives (.not :: tokens) ⟨.not value.expression, value.depth + 1⟩ (levels + 1)
  | primary {headLevels levels depth : Nat} {headTokens tokens : List TokenKind}
      {head : ParsedExpression} {segments : List AccessSegment}
      (hhead : HeadDerives headTokens head headLevels)
      (hsuffixes : SuffixesDerive tokens segments depth levels) :
      UnaryDerives (headTokens ++ tokens)
        ⟨attach head.expression segments, max head.depth depth⟩ (max headLevels levels + 2)

inductive HeadDerives : List TokenKind → ParsedExpression → Nat → Prop
  | string (value : String) : HeadDerives [.string value] ⟨.literal (.string value), 1⟩ 0
  | number (value : Number) : HeadDerives [.number value] ⟨.literal (.number value), 1⟩ 0
  | keyword {name : String} {literal : ExpressionLiteral} (h : keyword name = some literal) :
      HeadDerives [.identifier name] ⟨.literal literal, 1⟩ 0
  | root {name : String} (h : Antiburn.keyword name = none) :
      HeadDerives [.identifier name] ⟨.path [.property name], 1⟩ 0
  | group {levels : Nat} {tokens : List TokenKind} {value : ParsedExpression}
      (h : BinaryDerives 0 tokens value levels) :
      HeadDerives (.leftParen :: (tokens ++ [.rightParen])) value levels
  | call {name : String} {function : ExpressionFunction} {depth levels : Nat}
      {tokens : List TokenKind} {arguments : List Expression}
      (hname : Antiburn.keyword name = none)
      (hfunction : ExpressionFunction.parse name = some function)
      (h : ArgumentsDerive tokens arguments depth levels)
      (harity : function.acceptsArity arguments.length = true) :
      HeadDerives (.identifier name :: .leftParen :: (tokens ++ [.rightParen]))
        ⟨.call function arguments, depth⟩ levels

inductive ArgumentsDerive : List TokenKind → List Expression → (depth : Nat) → Nat → Prop
  | none : ArgumentsDerive [] [] 1 0
  | last {levels : Nat} {tokens : List TokenKind} {value : ParsedExpression}
      (h : BinaryDerives 0 tokens value levels) :
      ArgumentsDerive tokens [value.expression] (value.depth + 1) levels
  | more {levels restLevels depth : Nat} {tokens rest : List TokenKind} {value : ParsedExpression}
      {arguments : List Expression} (h : BinaryDerives 0 tokens value levels)
      (hne : arguments ≠ []) (hrest : ArgumentsDerive rest arguments depth restLevels) :
      ArgumentsDerive (tokens ++ .comma :: rest) (value.expression :: arguments)
        (max (value.depth + 1) depth) (max levels restLevels)

/-- Access steps behind a primary expression. -/
inductive SuffixesDerive : List TokenKind → List AccessSegment → (depth : Nat) → Nat → Prop
  | none : SuffixesDerive [] [] 0 0
  | named {depth levels : Nat} {tokens : List TokenKind} {segments : List AccessSegment}
      (name : String) (h : SuffixesDerive tokens segments depth levels) :
      SuffixesDerive (.dot :: .identifier name :: tokens) (.property name :: segments) depth levels
  | projected {depth levels : Nat} {tokens : List TokenKind} {segments : List AccessSegment}
      (h : SuffixesDerive tokens segments depth levels) :
      SuffixesDerive (.dot :: .star :: tokens) (.projection :: segments) depth levels
  | bracketed {depth levels restLevels : Nat} {inner tokens : List TokenKind}
      {value : ParsedExpression} {segments : List AccessSegment}
      (hinner : BinaryDerives 0 inner value levels)
      (h : SuffixesDerive tokens segments depth restLevels) :
      SuffixesDerive (.leftBracket :: (inner ++ .rightBracket :: tokens))
        (Parser.bracketSegment value.expression :: segments) (max (value.depth + 1) depth)
        (max levels restLevels)

end

namespace BinaryDerives

variable {minimum lower levels : Nat} {tokens : List TokenKind} {value : ParsedExpression}

lemma weaken (h : BinaryDerives minimum tokens value levels) (hle : lower ≤ minimum) :
    BinaryDerives lower tokens value levels := by
  cases h with
  | unary h => exact .unary h
  | binary operator hprecedence hleft hright =>
    exact .binary operator (Nat.le_trans hle hprecedence) hleft hright

lemma one_le_levels (h : BinaryDerives minimum tokens value levels) : 1 ≤ levels := by
  cases h <;> omega

end BinaryDerives

variable {segments : List AccessSegment} {levels depth : Nat}

lemma HeadDerives.starts {tokens : List TokenKind} {value : ParsedExpression}
    (h : HeadDerives tokens value levels) :
    ∃ kind rest, tokens = kind :: rest ∧ kind ≠ .not ∧ kind ≠ .rightParen := by
  cases h <;> exact ⟨_, _, rfl, TokenKind.noConfusion, TokenKind.noConfusion⟩

lemma BinaryDerives.starts {minimum levels : Nat} {tokens : List TokenKind}
    {value : ParsedExpression} :
    BinaryDerives minimum tokens value levels →
      ∃ kind rest, tokens = kind :: rest ∧ kind ≠ .rightParen
  | .unary h => by
    cases h with
    | not h => exact ⟨_, _, rfl, TokenKind.noConfusion⟩
    | primary hhead hsuffixes =>
      obtain ⟨kind, rest, rfl, -, hne⟩ := hhead.starts
      exact ⟨kind, rest ++ _, rfl, hne⟩
  | .binary _ _ hleft _ => by
    obtain ⟨kind, rest, rfl, hne⟩ := hleft.starts
    exact ⟨kind, rest ++ _, rfl, hne⟩

lemma ArgumentsDerive.starts {depth levels : Nat} {tokens : List TokenKind}
    {args : List Expression} (h : ArgumentsDerive tokens args depth levels)
    (hne : args ≠ []) : ∃ kind rest, tokens = kind :: rest ∧ kind ≠ .rightParen := by
  cases h with
  | none => exact absurd rfl hne
  | last h => exact h.starts
  | more h _ _ =>
    obtain ⟨kind, rest, rfl, hkind⟩ := h.starts
    exact ⟨kind, rest ++ _, rfl, hkind⟩

lemma HeadDerives.grouped {tokens : List TokenKind} {value : ParsedExpression}
    (h : HeadDerives tokens value levels) {base : Expression}
    (hvalue : value.expression = .access base segments) :
    ∃ rest, tokens = .leftParen :: rest := by
  cases h with
  | group h => exact ⟨_, rfl⟩
  | _ => cases hvalue

lemma ArgumentsDerive.one_le_depth {tokens : List TokenKind} {args : List Expression}
    (h : ArgumentsDerive tokens args depth levels) : 1 ≤ depth := by
  cases h <;> omega

lemma SuffixesDerive.starts {tokens : List TokenKind}
    (h : SuffixesDerive tokens segments depth levels) :
    tokens = [] ∨ ∃ kind rest, tokens = kind :: rest ∧ kind ≠ .leftParen := by
  cases h with
  | none => exact .inl rfl
  | _ => exact .inr ⟨_, _, rfl, TokenKind.noConfusion⟩

mutual

lemma BinaryDerives.unfinished {minimum levels : Nat} {tokens : List TokenKind}
    {value : ParsedExpression} :
    BinaryDerives minimum tokens value levels → .finish ∉ tokens
  | .unary h => h.unfinished
  | .binary operator _ hleft hright => by
    have hl := hleft.unfinished
    have hr := hright.unfinished
    have hop : operator.token ≠ .finish := by
      cases operator <;> exact TokenKind.noConfusion
    simp only [List.mem_append, List.mem_cons, not_or]
    exact ⟨hl, hop.symm, hr⟩

lemma UnaryDerives.unfinished {levels : Nat} {tokens : List TokenKind}
    {value : ParsedExpression} : UnaryDerives tokens value levels → .finish ∉ tokens
  | .not h => by
    have hinner := h.unfinished
    simp only [List.mem_cons, not_or]
    exact ⟨TokenKind.noConfusion, hinner⟩
  | .primary hhead hsuffixes => by
    have hh := hhead.unfinished
    have hs := hsuffixes.unfinished
    simp only [List.mem_append, not_or]
    exact ⟨hh, hs⟩

lemma HeadDerives.unfinished {levels : Nat} {tokens : List TokenKind}
    {value : ParsedExpression} : HeadDerives tokens value levels → .finish ∉ tokens
  | .string _ => by simp
  | .number _ => by simp
  | .keyword _ => by simp
  | .root _ => by simp
  | .group h | .call _ _ h _ => by
    have hinner := h.unfinished
    simpa using hinner

lemma ArgumentsDerive.unfinished {depth levels : Nat} {tokens : List TokenKind}
    {args : List Expression} :
    ArgumentsDerive tokens args depth levels → .finish ∉ tokens
  | .none => by simp
  | .last h => h.unfinished
  | .more h _ hrest => by
    have hfirst := h.unfinished
    have hothers := hrest.unfinished
    simp [hfirst, hothers]

lemma SuffixesDerive.unfinished {depth levels : Nat} {tokens : List TokenKind}
    {segments : List AccessSegment} :
    SuffixesDerive tokens segments depth levels → .finish ∉ tokens
  | .none => by simp
  | .named _ h | .projected h => by
    have hothers := h.unfinished
    simpa using hothers
  | .bracketed hinner h => by
    have hselr := hinner.unfinished
    have hothers := h.unfinished
    simp [hselr, hothers]

end

/-! ### Attaching access steps -/

namespace Parser

/-- What the loop over access steps makes of a value and of the steps that follow. -/
def pushAll (expression : Expression) (grouped : Bool) : List AccessSegment → Expression
  | [] => expression
  | segment :: rest => pushAll (pushAccess expression segment grouped) false rest

lemma pushAll_access (base : Expression) (front segments : List AccessSegment) :
    pushAll (.access base front) false segments = .access base (front ++ segments) := by
  induction segments generalizing front with
  | nil =>
    rw [List.append_nil]
    rfl
  | cons segment rest ih =>
    have hpush : pushAccess (.access base front) segment false =
        .access base (front ++ [segment]) := by
      cases segment <;> rfl
    show pushAll (pushAccess (.access base front) segment false) false rest = _
    rw [hpush, ih, List.append_assoc, List.singleton_append]

lemma pushAll_eq_attach (head : Expression) (grouped : Bool) (segments : List AccessSegment)
    (hchain : ∀ base front, head = .access base front → grouped = true) :
    pushAll head grouped segments = attach head segments := by
  have hpath : ∀ (segments : List AccessSegment) (names : List PathSegment) (grouped : Bool),
      pushAll (.path names) grouped segments = attach (.path names) segments := by
    intro segments
    induction segments with
    | nil => exact fun _ _ => rfl
    | cons segment rest ih =>
      intro names grouped
      cases segment with
      | property name =>
        have hpush : pushAccess (.path names) (.property name) grouped =
            .path (names ++ [.property name]) := by
          cases grouped <;> rfl
        show pushAll (pushAccess (.path names) (.property name) grouped) false rest = _
        rw [hpush, ih]
        rfl
      | index index =>
        have hpush : pushAccess (.path names) (.index index) grouped =
            .path (names ++ [.index index]) := by
          cases grouped <;> rfl
        show pushAll (pushAccess (.path names) (.index index) grouped) false rest = _
        rw [hpush, ih]
        rfl
      | dynamic selector =>
        have hpush : pushAccess (.path names) (.dynamic selector) grouped =
            .access (.path names) [.dynamic selector] := by
          cases grouped <;> rfl
        show pushAll (pushAccess (.path names) (.dynamic selector) grouped) false rest = _
        rw [hpush, pushAll_access]
        rfl
      | projection =>
        have hpush : pushAccess (.path names) .projection grouped =
            .access (.path names) [.projection] := by
          cases grouped <;> rfl
        show pushAll (pushAccess (.path names) .projection grouped) false rest = _
        rw [hpush, pushAll_access]
        rfl
  cases segments with
  | nil =>
    unfold attach
    rfl
  | cons segment rest =>
    have hstart : pushAccess head segment grouped = .access head [segment] →
        attach head (segment :: rest) = .access head (segment :: rest) →
        pushAll head grouped (segment :: rest) = attach head (segment :: rest) := by
      intro hpush hattach
      show pushAll (pushAccess head segment grouped) false rest = _
      rw [hpush, pushAll_access, hattach]
      rfl
    cases head with
    | path names => exact hpath (segment :: rest) names grouped
    | access base front =>
      rw [hchain base front rfl]
      rw [hchain base front rfl] at hstart
      exact hstart rfl (by cases segment <;> rfl)
    | literal value => exact hstart (by cases grouped <;> cases segment <;> rfl) (by cases segment <;> rfl)
    | call function args =>
      exact hstart (by cases grouped <;> cases segment <;> rfl) (by cases segment <;> rfl)
    | not value => exact hstart (by cases grouped <;> cases segment <;> rfl) (by cases segment <;> rfl)
    | binary operator left right =>
      exact hstart (by cases grouped <;> cases segment <;> rfl) (by cases segment <;> rfl)

end Parser

end Antiburn
