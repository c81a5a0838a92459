/-
Pure check expressions: their syntax, the lexer and the parser.

The parser is the source's recursive descent.  Each nested call raises the
syntax depth by one and the source rejects depth 129, so the levels left below
the limit serve as the recursion argument: at none left the parser returns the
source's own depth error, and there is no artificial fuel in it.  The loops
over operators, access suffixes and arguments consume a token in every round
and are bounded by the tokens that remain.
-/
import Antiburn.Platform

namespace Antiburn

/-! ### Syntax -/

inductive PathSegment where
  | property (name : String)
  | index (index : Nat)
  deriving DecidableEq

inductive ExpressionFunction where
  | strictEquals | contains | startsWith | endsWith | join | format | toJSON | fromJSON
  deriving DecidableEq

inductive ExpressionLiteral where
  | string (value : String)
  | number (value : Number)
  | boolean (value : Bool)
  | null
  deriving DecidableEq

inductive BinaryOperator where
  | less | lessOrEqual | greater | greaterOrEqual | equal | notEqual | and | or
  deriving DecidableEq

mutual

inductive Expression where
  | literal (value : ExpressionLiteral)
  | path (segments : List PathSegment)
  | access (base : Expression) (segments : List AccessSegment)
  | call (function : ExpressionFunction) (arguments : List Expression)
  | not (value : Expression)
  | binary (operator : BinaryOperator) (left right : Expression)

inductive AccessSegment where
  | property (name : String)
  | index (index : Nat)
  | dynamic (selector : Expression)
  | projection

end

namespace ExpressionFunction

def parse (name : String) : Option ExpressionFunction :=
  match name.map Char.toLower with
  | "strictequals" => some strictEquals
  | "contains" => some contains
  | "startswith" => some startsWith
  | "endswith" => some endsWith
  | "join" => some join
  | "format" => some format
  | "tojson" => some toJSON
  | "fromjson" => some fromJSON
  | _ => none

def acceptsArity (function : ExpressionFunction) (count : Nat) : Bool :=
  match function with
  | strictEquals | contains | startsWith | endsWith => count == 2
  | join => 1 ≤ count && count ≤ 2
  | format => 2 ≤ count
  | toJSON | fromJSON => count == 1

end ExpressionFunction

/-! ### Diagnostics -/

inductive DiagnosticCode where
  | configInvalidValue | compileUnsupportedFeature | compileInvalidExpression
  | compileUnknownReference | compileInvalidWindow | compileInvalidDecision
  | compileInvalidAction | runtimeInvalidDecision | runtimeInvalidContext
  | evaluationLimitExceeded
  deriving DecidableEq

/-- A syntax or capability error found while parsing an expression. -/
structure ExpressionError where
  code : DiagnosticCode
  message : String
  deriving DecidableEq

/-! ### Lexer -/

inductive TokenKind where
  | identifier (name : String)
  | string (value : String)
  | number (value : Number)
  | and | or | equal | notEqual | less | lessOrEqual | greater | greaterOrEqual | not
  | leftParen | rightParen | leftBracket | rightBracket | dot | star | comma | finish
  deriving DecidableEq

structure Token where
  kind : TokenKind
  offset : Nat
  deriving DecidableEq

def utf8Length (text : List Char) : Nat :=
  (text.map Char.utf8Size).sum

/-- Whether a byte starts or continues an identifier. -/
def isIdentifierStart (c : Char) : Bool := c.isAlpha || c == '_'

@[inherit_doc isIdentifierStart]
def isIdentifierRest (c : Char) : Bool := c.isAlphanum || c == '_'

/-- `u8::is_ascii_whitespace`: space, tab, line feed, form feed, carriage return. -/
def isAsciiWhitespace (c : Char) : Bool :=
  c == ' ' || c == '\t' || c == '\n' || c == '\x0c' || c == '\r'

def numberError (start : Nat) : ExpressionError :=
  ⟨.compileInvalidExpression, s!"Invalid finite JSON number at expression byte {start}."⟩

/-- The body of a string literal and the text after its closing quote; a doubled
quote stands for one. -/
def lexString (start : Nat) : List Char → Except ExpressionError (List Char × List Char)
  | '\'' :: '\'' :: rest => do
    let (value, after) ← lexString start rest
    return ('\'' :: value, after)
  | '\'' :: rest => .ok ([], rest)
  | c :: rest => do
    let (value, after) ← lexString start rest
    return (c :: value, after)
  | [] => .error
      ⟨.compileInvalidExpression, s!"Unterminated string literal at expression byte {start}."⟩

def lexNumber (start : Nat) (text : List Char) :
    Except ExpressionError (List Char × List Char) := do
  let (sign, text) :=
    match text with
    | '-' :: rest => (['-'], rest)
    | _ => ([], text)
  let (integer, text) :=
    match text with
    | '0' :: rest => (['0'], rest)
    | _ => text.span Char.isDigit
  let (fraction, text) ←
    match text with
    | '.' :: rest =>
      match rest.span Char.isDigit with
      | ([], _) => .error (numberError start)
      | (digits, rest) => .ok ('.' :: digits, rest)
    | _ => .ok ([], text)
  let (exponent, text) ←
    match text with
    | e :: rest =>
      if e == 'e' || e == 'E' then
        let (sign, rest) :=
          match rest with
          | s :: tail => if s == '+' || s == '-' then ([s], tail) else ([], rest)
          | [] => ([], [])
        match rest.span Char.isDigit with
        | ([], _) => .error (numberError start)
        | (digits, rest) => .ok (e :: sign ++ digits, rest)
      else .ok ([], text)
    | [] => .ok ([], text)
  return (sign ++ integer ++ fraction ++ exponent, text)

section Lexer

variable [Platform]

def lexToken (offset : Nat) (text : List Char) :
    Except ExpressionError (TokenKind × List Char) :=
  match text with
  | '&' :: '&' :: rest => .ok (.and, rest)
  | '|' :: '|' :: rest => .ok (.or, rest)
  | '=' :: '=' :: rest => .ok (.equal, rest)
  | '!' :: '=' :: rest => .ok (.notEqual, rest)
  | '!' :: rest => .ok (.not, rest)
  | '<' :: '=' :: rest => .ok (.lessOrEqual, rest)
  | '<' :: rest => .ok (.less, rest)
  | '>' :: '=' :: rest => .ok (.greaterOrEqual, rest)
  | '>' :: rest => .ok (.greater, rest)
  | '(' :: rest => .ok (.leftParen, rest)
  | ')' :: rest => .ok (.rightParen, rest)
  | '[' :: rest => .ok (.leftBracket, rest)
  | ']' :: rest => .ok (.rightBracket, rest)
  | '.' :: rest => .ok (.dot, rest)
  | '*' :: rest => .ok (.star, rest)
  | ',' :: rest => .ok (.comma, rest)
  | '\'' :: rest => do
    let (value, rest) ← lexString offset rest
    return (.string (String.ofList value), rest)
  | c :: rest =>
    if c.isDigit || (c == '-' && (rest.head?.any Char.isDigit)) then do
      let (digits, rest) ← lexNumber offset text
      match Platform.parseNumber (String.ofList digits) with
      | some value => return (.number value, rest)
      | none => throw (numberError offset)
    else if isIdentifierStart c then
      let (name, rest) := rest.span isIdentifierRest
      .ok (.identifier (String.ofList (c :: name)), rest)
    else .error
      ⟨.compileInvalidExpression, s!"Unexpected expression character at byte {offset}."⟩
  | [] => .ok (.finish, [])

/-- The token list of a text.  `fuel` bounds the rounds by the characters left;
each round consumes at least one. -/
def lexFrom : (fuel offset : Nat) → List Char → Except ExpressionError (List Token)
  | _, offset, [] => .ok [⟨.finish, offset⟩]
  | 0, offset, _ => .ok [⟨.finish, offset⟩]
  | fuel + 1, offset, c :: rest =>
    if isAsciiWhitespace c then lexFrom fuel (offset + 1) rest
    else do
      let (kind, after) ← lexToken offset (c :: rest)
      let consumed := utf8Length (c :: rest) - utf8Length after
      let tokens ← lexFrom fuel (offset + consumed) after
      return ⟨kind, offset⟩ :: tokens

/-- Split a source text into tokens; the last one is the end mark. -/
def lex (source : String) : Except ExpressionError (List Token) :=
  lexFrom source.toList.length 0 source.toList

end Lexer

/-! ### Parser -/

/-- Nesting limit of the parser's own recursion. -/
def MAX_EXPRESSION_PARSE_DEPTH : Nat := 128

/-- Limit on the depth of the expression tree, the evaluator's default. -/
def MAX_EXPRESSION_DEPTH : Nat := 32

structure ParsedExpression where
  expression : Expression
  depth : Nat

/-- A parser step: remaining tokens in, result and remaining tokens out. -/
abbrev Parser (α : Type) := List Token → Except ExpressionError (α × List Token)

namespace Parser

def current : List Token → TokenKind
  | token :: _ => token.kind
  | [] => .finish

def advance : List Token → List Token
  | ⟨.finish, offset⟩ :: _ => [⟨.finish, offset⟩]
  | _ :: rest => rest
  | [] => []

def error (tokens : List Token) (code : DiagnosticCode) (message : String) : ExpressionError :=
  ⟨code, s!"{message} (expression byte {(tokens.head?.map Token.offset).getD 0})."⟩

def expressionDepthError (tokens : List Token) : ExpressionError :=
  error tokens .compileInvalidExpression
    s!"Expression AST exceeds the maximum evaluation depth of {MAX_EXPRESSION_DEPTH}."

def parseDepthError (tokens : List Token) : ExpressionError :=
  error tokens .compileInvalidExpression
    "Expression syntax exceeds the parser nesting limit of 128."

def binaryOperator (tokens : List Token) : Option (BinaryOperator × Nat) :=
  match current tokens with
  | .or => some (.or, 1)
  | .and => some (.and, 2)
  | .equal => some (.equal, 3)
  | .notEqual => some (.notEqual, 3)
  | .less => some (.less, 4)
  | .lessOrEqual => some (.lessOrEqual, 4)
  | .greater => some (.greater, 4)
  | .greaterOrEqual => some (.greaterOrEqual, 4)
  | _ => none

/-- Append one access step to an expression.  A step after a parenthesized
access chain starts a new chain, so that a projection inside the group stays
there. -/
def pushAccess (expression : Expression) (segment : AccessSegment) (grouped : Bool) :
    Expression :=
  match grouped, expression, segment with
  | true, .access base segments, segment => .access (.access base segments) [segment]
  | _, .path segments, .property name => .path (segments ++ [.property name])
  | _, .path segments, .index index => .path (segments ++ [.index index])
  | _, .access base segments, segment => .access base (segments ++ [segment])
  | _, expression, segment => .access expression [segment]

def bracketSegment : Expression → AccessSegment
  | .literal (.string name) => .property name
  | .literal (.number number) =>
    match number.asU64 with
    | some index => .index index
    | none => .dynamic (.literal (.number number))
  | expression => .dynamic expression

/-- Operators at or above a precedence, left-associative.  `operand` parses a
right side one level deeper. -/
def binaryLoop (operand : Nat → Parser ParsedExpression) (minimum : Nat) :
    Nat → ParsedExpression → Parser ParsedExpression
  | 0, left, tokens => .ok (left, tokens)
  | rounds + 1, left, tokens =>
    match binaryOperator tokens with
    | none => .ok (left, tokens)
    | some (operator, precedence) =>
      if precedence < minimum then .ok (left, tokens)
      else do
        let (right, tokens) ← operand (precedence + 1) (advance tokens)
        let depth := max left.depth right.depth + 1
        if depth > MAX_EXPRESSION_DEPTH then throw (expressionDepthError tokens)
        binaryLoop operand minimum rounds
          ⟨.binary operator left.expression right.expression, depth⟩ tokens

/-- Arguments after the opening parenthesis: at least one, separated by commas. -/
def argumentLoop (argument : Parser ParsedExpression) :
    Nat → Nat → Parser (List Expression × Nat)
  | 0, depth, tokens => .ok (([], depth), tokens)
  | rounds + 1, depth, tokens => do
    let (value, tokens) ← argument tokens
    let depth := max depth (value.depth + 1)
    match current tokens with
    | .comma =>
      let ((rest, depth), tokens) ← argumentLoop argument rounds depth (advance tokens)
      return ((value.expression :: rest, depth), tokens)
    | _ => return (([value.expression], depth), tokens)

def parseCall (argument : Parser ParsedExpression) (name : String) : Parser ParsedExpression :=
  fun tokens =>
    match ExpressionFunction.parse name with
    | none => .error (error tokens .compileUnsupportedFeature "Unknown expression function.")
    | some function => do
      let tokens := advance tokens
      let ((arguments, depth), tokens) ←
        match current tokens with
        | .rightParen => pure (([], 1), tokens)
        | _ => argumentLoop argument tokens.length 1 tokens
      match current tokens with
      | .rightParen =>
        let tokens := advance tokens
        if function.acceptsArity arguments.length then
          return (⟨.call function arguments, depth⟩, tokens)
        else throw (error tokens .compileInvalidExpression
          "Wrong number of expression function arguments.")
      | _ => throw (error (advance tokens) .compileInvalidExpression
          "Expected `)` after function arguments.")

/-- Property, projection and bracket suffixes of a primary expression. -/
def accessLoop (selector : Parser ParsedExpression) :
    Nat → Expression → Bool → Nat → Parser ParsedExpression
  | 0, expression, _, depth, tokens => .ok (⟨expression, depth⟩, tokens)
  | rounds + 1, expression, grouped, depth, tokens =>
    match current tokens with
    | .dot =>
      match current (advance tokens) with
      | .identifier name =>
        accessLoop selector rounds (pushAccess expression (.property name) grouped) false depth
          (advance (advance tokens))
      | .star =>
        accessLoop selector rounds (pushAccess expression .projection grouped) false depth
          (advance (advance tokens))
      | _ => .error (error (advance (advance tokens)) .compileInvalidExpression
          "Expected a property name after `.`.")
    | .leftBracket => do
      let (value, tokens) ← selector (advance tokens)
      let depth := max depth (value.depth + 1)
      match current tokens with
      | .rightBracket =>
        accessLoop selector rounds
          (pushAccess expression (bracketSegment value.expression) grouped) false depth
          (advance tokens)
      | _ => throw (error (advance tokens) .compileInvalidExpression
          "Expected `]` after a bracket key or index.")
    | .leftParen => .error (error tokens .compileUnsupportedFeature
        "Method calls and calls on computed values are not supported.")
    | _ => .ok (⟨expression, depth⟩, tokens)

/-- A literal, a root, a call or a group, before its suffixes.  `nested` parses
a whole expression one level deeper. -/
def primaryHead (nested : Nat → Parser ParsedExpression) : Parser ParsedExpression :=
  fun tokens =>
    let after := advance tokens
    match current tokens with
    | .identifier "true" => .ok (⟨.literal (.boolean true), 1⟩, after)
    | .identifier "false" => .ok (⟨.literal (.boolean false), 1⟩, after)
    | .identifier "null" => .ok (⟨.literal .null, 1⟩, after)
    | .identifier name =>
      match current after with
      | .leftParen => parseCall (nested 0) name after
      | _ => .ok (⟨.path [.property name], 1⟩, after)
    | .string value => .ok (⟨.literal (.string value), 1⟩, after)
    | .number value => .ok (⟨.literal (.number value), 1⟩, after)
    | .leftParen => do
      let (value, tokens) ← nested 0 after
      match current tokens with
      | .rightParen => return (value, advance tokens)
      | _ => throw (error (advance tokens) .compileInvalidExpression
          "Expected `)` to close the expression group.")
    | .finish => .error (error after .compileInvalidExpression "Expected an expression value.")
    | _ => .error (error after .compileInvalidExpression
        "Expected a literal, path, or parenthesized expression.")

def primary (nested : Nat → Parser ParsedExpression) : Parser ParsedExpression :=
  fun tokens => do
    let grouped := current tokens == .leftParen
    let (head, tokens) ← primaryHead nested tokens
    let (value, tokens) ← accessLoop (nested 0) tokens.length head.expression grouped head.depth
      tokens
    if value.depth > MAX_EXPRESSION_DEPTH then throw (expressionDepthError tokens)
    return (value, tokens)

mutual

/-- `levels` counts the nesting levels left: the source's `depth` is
`MAX_EXPRESSION_PARSE_DEPTH + 1 - levels`. -/
def parseBinary : (levels : Nat) → Nat → Parser ParsedExpression
  | 0, _, tokens => .error (parseDepthError tokens)
  | levels + 1, minimum, tokens => do
    let (left, tokens) ← parseUnary levels tokens
    binaryLoop (parseBinary levels) minimum tokens.length left tokens

@[inherit_doc parseBinary]
def parseUnary : (levels : Nat) → Parser ParsedExpression
  | 0, tokens => .error (parseDepthError tokens)
  | levels + 1, tokens =>
    match current tokens with
    | .not => do
      let (value, tokens) ← parseUnary levels (advance tokens)
      let depth := value.depth + 1
      if depth > MAX_EXPRESSION_DEPTH then throw (expressionDepthError tokens)
      return (⟨.not value.expression, depth⟩, tokens)
    | _ => parsePrimary levels tokens

@[inherit_doc parseBinary]
def parsePrimary : (levels : Nat) → Parser ParsedExpression
  | 0, tokens => .error (parseDepthError tokens)
  | levels + 1, tokens => primary (parseBinary levels) tokens

end

end Parser

variable [Platform]

/-- Parse one expression with pure calls, access and supported operators. -/
def parseExpression (source : String) : Except ExpressionError Expression := do
  let tokens ← lex source
  let (value, tokens) ← Parser.parseBinary (MAX_EXPRESSION_PARSE_DEPTH + 1) 0 tokens
  match Parser.current tokens with
  | .finish => return value.expression
  | _ => throw (Parser.error tokens .compileInvalidExpression
      "Unexpected content after the expression.")

end Antiburn
