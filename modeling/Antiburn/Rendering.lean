/-
Writing an expression with as few parentheses as the grammar allows.

An operation stands in parentheses where its context binds stronger, and the
base of an access chain where it is a chain, a negation or an operation.  What
is written derives the tree it was written from, so parsing it returns that
tree.
-/
import Antiburn.Checkpoint
import Antiburn.ParserCompleteness

namespace Antiburn

/-! ### Rendering -/

def ExpressionFunction.name : ExpressionFunction → String
  | strictEquals => "strictEquals"
  | contains => "contains"
  | startsWith => "startsWith"
  | endsWith => "endsWith"
  | join => "join"
  | format => "format"
  | toJSON => "toJSON"
  | fromJSON => "fromJSON"

lemma ExpressionFunction.parse_name (function : ExpressionFunction) :
    parse function.name = some function := by
  cases function <;> decide +kernel

lemma ExpressionFunction.keyword_name (function : ExpressionFunction) :
    keyword function.name = none := by
  cases function <;> decide

def ExpressionLiteral.token : ExpressionLiteral → TokenKind
  | .string value => .string value
  | .number value => .number value
  | .boolean true => .identifier "true"
  | .boolean false => .identifier "false"
  | .null => .identifier "null"

def parenthesize (tokens : List TokenKind) : List TokenKind :=
  .leftParen :: (tokens ++ [.rightParen])

def bracketize (tokens : List TokenKind) : List TokenKind :=
  .leftBracket :: (tokens ++ [.rightBracket])

/-- A property behind a dot where its name can stand there, and in brackets elsewhere. -/
def renderProperty (dotted : String → Bool) (name : String) : List TokenKind :=
  if dotted name then [.dot, .identifier name] else bracketize [.string name]

/-- A fixed step of a path. -/
def PathSegment.render (dotted : String → Bool) : PathSegment → List TokenKind
  | .property name => renderProperty dotted name
  | .index position => bracketize [.number (.ofNat position)]

def renderPath (dotted : String → Bool) : List PathSegment → List TokenKind
  | .property name :: rest => .identifier name :: rest.flatMap (PathSegment.render dotted)
  | segments => segments.flatMap (PathSegment.render dotted)

def Expression.groupedBase : Expression → Bool
  | .access _ _ | .not _ | .binary _ _ _ => true
  | _ => false

mutual

/-- Tokens of an expression where operators below the precedence need parentheses. -/
def Expression.render (dotted : String → Bool) : (minimum : Nat) → Expression → List TokenKind
  | _, .literal value => [value.token]
  | _, .path segments => renderPath dotted segments
  | _, .access base segments =>
    (if base.groupedBase then parenthesize (base.render dotted 0) else base.render dotted 0) ++
      renderSteps dotted segments
  | _, .call function arguments =>
    .identifier function.name :: parenthesize (renderArguments dotted arguments)
  | _, .not value => .not :: value.render dotted 5
  | minimum, .binary operator left right =>
    let tokens := left.render dotted operator.precedence ++
      operator.token :: right.render dotted (operator.precedence + 1)
    if operator.precedence < minimum then parenthesize tokens else tokens

def renderArguments (dotted : String → Bool) : List Expression → List TokenKind
  | [] => []
  | [argument] => argument.render dotted 0
  | argument :: next :: rest =>
    argument.render dotted 0 ++ .comma :: renderArguments dotted (next :: rest)

def renderSteps (dotted : String → Bool) : List AccessSegment → List TokenKind
  | [] => []
  | .property name :: rest => renderProperty dotted name ++ renderSteps dotted rest
  | .index index :: rest => bracketize [.number (.ofNat index)] ++ renderSteps dotted rest
  | .dynamic selector :: rest =>
    bracketize (selector.render dotted 0) ++ renderSteps dotted rest
  | .projection :: rest => .dot :: .star :: renderSteps dotted rest

end

/-! ### The trees of the grammar -/

def Assigns (minimum : Nat) (tokens : List TokenKind) (expression : Expression) : Prop :=
  ∃ depth levels, BinaryDerives minimum tokens ⟨expression, depth⟩ levels

def AccessSegment.extendsPath : AccessSegment → Bool
  | .property _ | .index _ => true
  | _ => false

def StartsChain (base : Expression) (segments : List AccessSegment) : Prop :=
  ∃ first rest, segments = first :: rest ∧
    ∀ names, base = .path names → first.extendsPath = false

mutual

/-- Trees that the grammar can assign. -/
def Expression.Grammatical : Expression → Prop
  | .literal _ => True
  | .path segments => ∃ name rest, segments = .property name :: rest ∧ keyword name = none
  | .access base segments =>
    base.Grammatical ∧ StepsGrammatical segments ∧ StartsChain base segments
  | .call function arguments =>
    function.acceptsArity arguments.length = true ∧ ArgumentsGrammatical arguments
  | .not value => value.Grammatical
  | .binary _ left right => left.Grammatical ∧ right.Grammatical

@[inherit_doc Expression.Grammatical]
def ArgumentsGrammatical : List Expression → Prop
  | [] => True
  | argument :: rest => argument.Grammatical ∧ ArgumentsGrammatical rest

@[inherit_doc Expression.Grammatical]
def StepsGrammatical : List AccessSegment → Prop
  | [] => True
  | .dynamic selector :: rest =>
    selector.Grammatical ∧ Parser.bracketSegment selector = .dynamic selector ∧
      StepsGrammatical rest
  | .property _ :: rest => StepsGrammatical rest
  | .index _ :: rest => StepsGrammatical rest
  | .projection :: rest => StepsGrammatical rest

end

lemma Parser.bracketSegment_cases (value : Expression) :
    (∃ name, bracketSegment value = .property name) ∨
      (∃ position, bracketSegment value = .index position) ∨
      bracketSegment value = .dynamic value := by
  unfold bracketSegment
  split
  · exact .inl ⟨_, rfl⟩
  · split
    · exact .inr (.inl ⟨_, rfl⟩)
    · exact .inr (.inr rfl)
  · exact .inr (.inr rfl)

lemma attach_chain {head : Expression} {first : AccessSegment} {rest : List AccessSegment}
    (h : ∀ names, head = .path names → first.extendsPath = false) :
    attach head (first :: rest) = .access head (first :: rest) := by
  cases head with
  | path names =>
    cases first with
    | property | index => cases h names rfl
    | dynamic | projection => rfl
  | literal | access | call | not | binary => cases first <;> rfl

def PathSegment.toStep : PathSegment → AccessSegment
  | .property name => .property name
  | .index position => .index position

lemma attach_path (steps : List PathSegment) :
    ∀ (names : List PathSegment) (rest : List AccessSegment),
      attach (.path names) (steps.map PathSegment.toStep ++ rest) =
        attach (.path (names ++ steps)) rest := by
  induction steps with
  | nil =>
    intro names rest
    rw [List.map_nil, List.nil_append, List.append_nil]
  | cons step steps ih =>
    intro names rest
    have hstep : attach (.path names) (step.toStep :: (steps.map PathSegment.toStep ++ rest)) =
        attach (.path (names ++ [step])) (steps.map PathSegment.toStep ++ rest) := by
      cases step <;> rfl
    rw [List.map_cons, List.cons_append, hstep, ih, List.append_assoc, List.singleton_append]

lemma attach_grammatical {segs : List AccessSegment} (hsteps : StepsGrammatical segs) :
    ∀ {head : Expression}, head.Grammatical → (attach head segs).Grammatical := by
  induction segs with
  | nil =>
    intro head hhead
    unfold attach
    exact hhead
  | cons first rest ih =>
    intro head hhead
    by_cases hextends : ∀ names, head = .path names → first.extendsPath = false
    · rw [attach_chain hextends]
      exact ⟨hhead, hsteps, first, rest, rfl, hextends⟩
    · have hlonger : ∀ {names : List PathSegment} (step : PathSegment),
          (Expression.path names).Grammatical → StepsGrammatical rest →
          (attach (.path (names ++ [step])) rest).Grammatical := by
        rintro names step ⟨name, others, rfl, hname⟩ hrest
        exact ih hrest ⟨name, others ++ [step], rfl, hname⟩
      obtain ⟨names, rfl, hfirst⟩ : ∃ names, head = .path names ∧ first.extendsPath ≠ false := by
        simpa using hextends
      cases first with
      | property name => exact hlonger (.property name) hhead hsteps
      | index position => exact hlonger (.index position) hhead hsteps
      | dynamic | projection => exact absurd rfl hfirst

mutual

lemma BinaryDerives.grammatical {minimum levels : Nat} {tokens : List TokenKind}
    {value : ParsedExpression} :
    BinaryDerives minimum tokens value levels → value.expression.Grammatical
  | .unary h => h.grammatical
  | .binary _ _ hleft hright => ⟨hleft.grammatical, hright.grammatical⟩

lemma UnaryDerives.grammatical {levels : Nat} {tokens : List TokenKind}
    {value : ParsedExpression} :
    UnaryDerives tokens value levels → value.expression.Grammatical
  | .not h => h.grammatical
  | .primary hhead hsuff => attach_grammatical hsuff.grammatical hhead.grammatical

lemma HeadDerives.grammatical {levels : Nat} {tokens : List TokenKind}
    {value : ParsedExpression} : HeadDerives tokens value levels → value.expression.Grammatical
  | .string _ => trivial
  | .number _ => trivial
  | .keyword _ => trivial
  | .root h => ⟨_, _, rfl, h⟩
  | .group h => h.grammatical
  | .call _ _ h harity => ⟨harity, h.grammatical⟩

lemma ArgumentsDerive.grammatical {depth levels : Nat} {tokens : List TokenKind}
    {args : List Expression} :
    ArgumentsDerive tokens args depth levels → ArgumentsGrammatical args
  | .none => trivial
  | .last h => ⟨h.grammatical, trivial⟩
  | .more h _ hrest => ⟨h.grammatical, hrest.grammatical⟩

lemma SuffixesDerive.grammatical {depth levels : Nat} {tokens : List TokenKind}
    {segs : List AccessSegment} :
    SuffixesDerive tokens segs depth levels → StepsGrammatical segs
  | .none => trivial
  | .named _ h => h.grammatical
  | .projected h => h.grammatical
  | @SuffixesDerive.bracketed _ _ _ _ _ value _ hinner h => by
    have hselr := hinner.grammatical
    have hothers := h.grammatical
    rcases Parser.bracketSegment_cases value.expression with ⟨name, hs⟩ | ⟨position, hs⟩ | hs
    · rw [hs]
      exact hothers
    · rw [hs]
      exact hothers
    · rw [hs]
      exact ⟨hselr, hs, hothers⟩

end

/-! ### The rendering derives its tree -/

namespace SuffixesDerive

lemma append {depth levels : Nat} {tokens more : List TokenKind}
    {segs steps : List AccessSegment} {moreDepth moreLevels : Nat}
    (hmore : SuffixesDerive more steps moreDepth moreLevels) :
    SuffixesDerive tokens segs depth levels →
      ∃ d n, SuffixesDerive (tokens ++ more) (segs ++ steps) d n
  | .none => ⟨_, _, hmore⟩
  | .named name h => by
    obtain ⟨d, n, hrest⟩ := append hmore h
    exact ⟨d, n, .named name hrest⟩
  | .projected h => by
    obtain ⟨d, n, hrest⟩ := append hmore h
    exact ⟨d, n, .projected hrest⟩
  | .bracketed hinner h => by
    obtain ⟨d, n, hrest⟩ := append hmore h
    rw [List.cons_append, List.append_assoc, List.cons_append]
    exact ⟨_, _, .bracketed hinner hrest⟩

lemma selector {depth levels : Nat} {selector tokens : List TokenKind} {value : Expression}
    {segs : List AccessSegment} (hvalue : Assigns 0 selector value)
    (h : SuffixesDerive tokens segs depth levels) :
    ∃ d n, SuffixesDerive (bracketize selector ++ tokens)
      (Parser.bracketSegment value :: segs) d n := by
  obtain ⟨inner, n, hinner⟩ := hvalue
  rw [bracketize, List.cons_append, List.append_assoc, List.singleton_append]
  exact ⟨_, _, .bracketed hinner h⟩

end SuffixesDerive

namespace Assigns

lemma head {minimum levels : Nat} {tokens : List TokenKind} {value : ParsedExpression}
    (h : HeadDerives tokens value levels) : Assigns minimum tokens value.expression := by
  have hprim := UnaryDerives.primary h .none
  rw [List.append_nil, attach] at hprim
  exact ⟨_, _, .unary hprim⟩

lemma string (value : String) : Assigns 0 [.string value] (.literal (.string value)) :=
  head (.string value)

lemma number (value : Number) : Assigns 0 [.number value] (.literal (.number value)) :=
  head (.number value)

end Assigns

lemma SuffixesDerive.property (dotted : String → Bool) (name : String) {depth levels : Nat}
    {tokens : List TokenKind} {segs : List AccessSegment}
    (h : SuffixesDerive tokens segs depth levels) :
    ∃ d n, SuffixesDerive (renderProperty dotted name ++ tokens) (.property name :: segs) d n := by
  unfold renderProperty
  split
  · exact ⟨_, _, .named name h⟩
  · exact h.selector (.string name)

lemma SuffixesDerive.index (position : Nat) {depth levels : Nat}
    {tokens : List TokenKind} {segs : List AccessSegment}
    (h : SuffixesDerive tokens segs depth levels) :
    ∃ d n, SuffixesDerive (bracketize [.number (.ofNat position)] ++ tokens)
      (.index position :: segs) d n := by
  have hseg : Parser.bracketSegment (.literal (.number (.ofNat position))) =
      .index position := by
    rw [Parser.bracketSegment, JsonCodec.asU64_ofNat]
  rw [← hseg]
  exact h.selector (.number (.ofNat position))

/-- The tokens start a primary expression that is the base, and a chain at the base goes on
with them. -/
def WritesBase (base : Expression) (tokens : List TokenKind) : Prop :=
  ∃ headTokens suffixTokens head segments depth headLevels levels,
    tokens = headTokens ++ suffixTokens ∧ HeadDerives headTokens head headLevels ∧
      SuffixesDerive suffixTokens segments depth levels ∧ attach head.expression segments = base ∧
      ∀ steps, StartsChain base steps →
        attach head.expression (segments ++ steps) = .access base steps

namespace WritesBase

variable {base : Expression} {tokens : List TokenKind}

lemma assigns (h : WritesBase base tokens) (minimum : Nat) : Assigns minimum tokens base := by
  obtain ⟨headTokens, suffixTokens, head, segs, depth, n, m, rfl, hhead, hsuff, rfl, -⟩ := h
  exact ⟨_, _, .unary (.primary hhead hsuff)⟩

lemma access (h : WritesBase base tokens) {steps : List AccessSegment}
    {stepTokens : List TokenKind} {d m : Nat} (hsteps : SuffixesDerive stepTokens steps d m)
    (hstarts : StartsChain base steps) (minimum : Nat) :
    Assigns minimum (tokens ++ stepTokens) (.access base steps) := by
  obtain ⟨headTokens, suffixTokens, head, segs, depth, n, k, rfl, hhead, hsuff, -, hchain⟩ :=
    h
  obtain ⟨d', n', hall⟩ := SuffixesDerive.append hsteps hsuff
  have hprim := UnaryDerives.primary hhead hall
  rw [hchain steps hstarts, ← List.append_assoc] at hprim
  exact ⟨_, _, .unary hprim⟩

lemma of_head {value : ParsedExpression} {levels : Nat} (h : HeadDerives tokens value levels) :
    WritesBase value.expression tokens := by
  refine ⟨tokens, [], value, [], 0, levels, 0, (List.append_nil _).symm, h, .none, ?_, ?_⟩
  · rw [attach]
  · rintro steps ⟨first, rest, rfl, hfirst⟩
    exact attach_chain hfirst

lemma of_assigns (h : Assigns 0 tokens base) : WritesBase base (parenthesize tokens) := by
  obtain ⟨depth, levels, h⟩ := h
  exact of_head (.group h)

lemma literal (value : ExpressionLiteral) : WritesBase (.literal value) [value.token] := by
  cases value with
  | string value => exact of_head (.string value)
  | number value => exact of_head (.number value)
  | boolean value =>
    cases value with
    | true | false => exact of_head (.keyword rfl)
  | null => exact of_head (.keyword rfl)

end WritesBase

lemma exists_suffixes (dotted : String → Bool) (steps : List PathSegment) :
    ∃ d n, SuffixesDerive (steps.flatMap (PathSegment.render dotted))
      (steps.map PathSegment.toStep) d n := by
  induction steps with
  | nil => exact ⟨_, _, .none⟩
  | cons step steps ih =>
    obtain ⟨d, n, hrest⟩ := ih
    rw [List.flatMap_cons, List.map_cons]
    cases step with
    | property name => exact hrest.property dotted name
    | index position => exact hrest.index position

lemma WritesBase.path (dotted : String → Bool) {name : String} (hname : keyword name = none)
    (steps : List PathSegment) :
    WritesBase (.path (.property name :: steps)) (renderPath dotted (.property name :: steps)) := by
  obtain ⟨d, n, hsteps⟩ := exists_suffixes dotted steps
  refine ⟨[.identifier name], _, _, _, d, 0, n, rfl, .root hname, hsteps, ?_, ?_⟩
  · have hattach := attach_path steps [.property name] []
    rw [List.append_nil] at hattach
    rw [hattach, attach]
    rfl
  · rintro more ⟨first, rest, rfl, hfirst⟩
    rw [attach_path]
    exact attach_chain hfirst

lemma BinaryDerives.unary_of_five {levels : Nat} {tokens : List TokenKind}
    {value : ParsedExpression} (h : BinaryDerives 5 tokens value levels) :
    ∃ n, UnaryDerives tokens value n := by
  cases h with
  | unary h => exact ⟨_, h⟩
  | binary operator hprec _ _ =>
    cases operator <;> exact absurd hprec (by decide)

mutual

/-- **What is written of a tree derives it**, as an operand of every precedence and as the
base of a chain. -/
lemma Expression.render_writes (dotted : String → Bool) :
    ∀ expr : Expression, expr.Grammatical →
      (∀ minimum, Assigns minimum (expr.render dotted minimum) expr) ∧
        WritesBase expr (if expr.groupedBase
          then parenthesize (expr.render dotted 0) else expr.render dotted 0)
  | .literal value, _ =>
    ⟨(WritesBase.literal value).assigns, WritesBase.literal value⟩
  | .path _, ⟨name, rest, hsegs, hname⟩ => by
    subst hsegs
    have hpath := WritesBase.path dotted hname rest
    exact ⟨hpath.assigns, hpath⟩
  | .access base segs, ⟨hbase, hsteps, hstarts⟩ => by
    obtain ⟨-, hwrites⟩ := base.render_writes dotted hbase
    obtain ⟨d, n, hderives⟩ := renderSteps_derives dotted segs hsteps
    have haccess := hwrites.access hderives hstarts
    exact ⟨haccess, .of_assigns (haccess 0)⟩
  | .call function args, ⟨harity, hargs⟩ => by
    obtain ⟨d, n, hderives⟩ := renderArguments_derives dotted args hargs
    have hcall := WritesBase.of_head
      (.call function.keyword_name function.parse_name hderives harity)
    exact ⟨hcall.assigns, hcall⟩
  | .not value, hvalue => by
    obtain ⟨hassig, -⟩ := value.render_writes dotted hvalue
    obtain ⟨depth, levels, hderives⟩ := hassig 5
    obtain ⟨n, hunary⟩ := hderives.unary_of_five
    have hnot : ∀ minimum, Assigns minimum (Expression.render dotted minimum (.not value))
        (.not value) := fun _ => ⟨_, _, .unary (.not hunary)⟩
    exact ⟨hnot, .of_assigns (hnot 0)⟩
  | .binary operator left right, ⟨hleft, hright⟩ => by
    obtain ⟨hassignsLeft, -⟩ := left.render_writes dotted hleft
    obtain ⟨hassignsRight, -⟩ := right.render_writes dotted hright
    obtain ⟨leftDepth, leftLevels, hleftDerives⟩ := hassignsLeft operator.precedence
    obtain ⟨rightDepth, rightLevels, hrightDerives⟩ := hassignsRight (operator.precedence + 1)
    have hbinary : ∀ minimum ≤ operator.precedence,
        Assigns minimum (left.render dotted operator.precedence ++
          operator.token :: right.render dotted (operator.precedence + 1))
          (.binary operator left right) :=
      fun minimum hle => ⟨_, _, .binary operator hle hleftDerives hrightDerives⟩
    have hall : ∀ minimum, Assigns minimum
        (Expression.render dotted minimum (.binary operator left right))
        (.binary operator left right) := by
      intro minimum
      unfold Expression.render
      dsimp only
      split
      · exact (WritesBase.of_assigns (hbinary 0 (Nat.zero_le _))).assigns minimum
      · rename_i hle
        exact hbinary minimum (Nat.not_lt.mp hle)
    exact ⟨hall, .of_assigns (hall 0)⟩

lemma renderArguments_derives (dotted : String → Bool) :
    ∀ args : List Expression, ArgumentsGrammatical args →
      ∃ d n, ArgumentsDerive (renderArguments dotted args) args d n
  | [], _ => ⟨_, _, .none⟩
  | [argument], ⟨harg, _⟩ => by
    obtain ⟨hassig, -⟩ := argument.render_writes dotted harg
    obtain ⟨depth, levels, hderives⟩ := hassig 0
    exact ⟨_, _, .last hderives⟩
  | argument :: next :: rest, ⟨harg, hrest⟩ => by
    obtain ⟨hassig, -⟩ := argument.render_writes dotted harg
    obtain ⟨depth, levels, hderives⟩ := hassig 0
    obtain ⟨d, n, hothers⟩ := renderArguments_derives dotted (next :: rest) hrest
    exact ⟨_, _, .more hderives (List.cons_ne_nil _ _) hothers⟩

lemma renderSteps_derives (dotted : String → Bool) :
    ∀ steps : List AccessSegment, StepsGrammatical steps →
      ∃ d n, SuffixesDerive (renderSteps dotted steps) steps d n
  | [], _ => ⟨_, _, .none⟩
  | .property name :: rest, hrest => by
    obtain ⟨d, n, hothers⟩ := renderSteps_derives dotted rest hrest
    exact hothers.property dotted name
  | .index position :: rest, hrest => by
    obtain ⟨d, n, hothers⟩ := renderSteps_derives dotted rest hrest
    exact hothers.index position
  | .dynamic selector :: rest, ⟨hselr, hbrk, hrest⟩ => by
    obtain ⟨d, n, hothers⟩ := renderSteps_derives dotted rest hrest
    obtain ⟨hassig, -⟩ := selector.render_writes dotted hselr
    have hbrack := hothers.selector (hassig 0)
    rw [hbrk] at hbrack
    exact hbrack
  | .projection :: rest, hrest => by
    obtain ⟨d, n, hothers⟩ := renderSteps_derives dotted rest hrest
    exact ⟨_, _, .projected hothers⟩

end

/-- **The parser implements its grammar.**  It accepts exactly the sentences within its limits
and returns the tree that the grammar assigns; writing any tree of the grammar and parsing it
back returns that tree. -/
theorem parser_implements_grammar :
    (∀ (tokens : List Token) (expression : Expression),
      parseTokens tokens = .ok expression ↔
        ∃ depth levels, BinaryDerives 0 (sentence tokens) ⟨expression, depth⟩ levels ∧
          depth ≤ MAX_EXPRESSION_DEPTH ∧ levels ≤ MAX_EXPRESSION_PARSE_DEPTH + 1) ∧
    ∀ (dotted : String → Bool) (expression : Expression),
      (∃ tokens, Assigns 0 tokens expression) →
        ∃ depth levels,
          BinaryDerives 0 (expression.render dotted 0) ⟨expression, depth⟩ levels ∧
          (depth ≤ MAX_EXPRESSION_DEPTH → levels ≤ MAX_EXPRESSION_PARSE_DEPTH + 1 →
            ∀ tokens, sentence tokens = expression.render dotted 0 →
              parseTokens tokens = .ok expression) := by
  refine ⟨fun tokens expression => parseTokens_eq_ok, ?_⟩
  rintro dotted expression ⟨tokens, d, n, hderives⟩
  obtain ⟨depth, levels, hrender⟩ := (expression.render_writes dotted hderives.grammatical).1 0
  refine ⟨depth, levels, hrender, fun hdepth hlevels written hwritten => ?_⟩
  apply parseTokens_eq_ok.mpr
  rw [hwritten]
  exact ⟨depth, levels, hrender, hdepth, hlevels⟩

/-- A chain at a projection in parentheses starts anew, so the parentheses are written. -/
example :
    (Expression.access (.access (.path [.property "a"]) [.projection]) [.property "b"]).render
      (fun _ => true) 0 =
      [.leftParen, .identifier "a", .dot, .star, .rightParen, .dot, .identifier "b"] := by
  decide

end Antiburn
