/-
The parser reads every derivation, so it recognizes exactly the sentences of the
grammar within its limits.

The descent reads a derivation as a left side and goes on with its loop; where
no operator of the precedence follows, the loop returns.  The induction is on
the derivation.
-/
import Antiburn.ParserSoundness

namespace Antiburn

variable {tokens : List Token}

namespace Parser

/-! ### The parser finds every derivation -/

/-- No access step and no argument list comes next. -/
def EndsPrimary (tokens : List Token) : Prop :=
  current tokens ≠ .dot ∧ current tokens ≠ .leftBracket ∧ current tokens ≠ .leftParen

lemma endsPrimary_token (operator : BinaryOperator) (offset : Nat) (rest : List Token) :
    EndsPrimary (⟨operator.token, offset⟩ :: rest) := by
  cases operator <;> exact ⟨TokenKind.noConfusion, TokenKind.noConfusion, TokenKind.noConfusion⟩

lemma stops_of_none {minimum : Nat} (h : binaryOperator tokens = none) :
    Stops minimum tokens := by
  intro operator precedence hop
  rw [h] at hop
  cases hop

lemma Stops.mono {lower minimum : Nat} (h : Stops lower tokens)
    (hle : lower ≤ minimum) : Stops minimum tokens :=
  fun operator precedence hop => Nat.lt_of_lt_of_le (h operator precedence hop) hle

variable {rest front : List Token} {operand : Nat → Parser ParsedExpression}

lemma binaryLoop_stops {minimum : Nat} (h : Stops minimum tokens) (rounds : Nat) (left : ParsedExpression) :
    binaryLoop operand minimum rounds left tokens = .ok (left, tokens) := by
  cases rounds with
  | zero => rfl
  | succ rounds =>
    unfold binaryLoop
    split
    · rfl
    · rename_i operator precedence hop
      rw [if_pos (h operator precedence hop)]

lemma binaryLoop_step {minimum : Nat}
    {operator : BinaryOperator} (hle : minimum ≤ operator.precedence) (rounds offset : Nat)
    {left right : ParsedExpression}
    (hright : operand (operator.precedence + 1) tokens = .ok (right, rest))
    (hdepth : max left.depth right.depth + 1 ≤ MAX_EXPRESSION_DEPTH) :
    binaryLoop operand minimum (rounds + 1) left (⟨operator.token, offset⟩ :: tokens) =
      binaryLoop operand minimum rounds
        ⟨.binary operator left.expression right.expression, max left.depth right.depth + 1⟩
        rest := by
  rw [binaryLoop, binaryOperator_token]
  show (if operator.precedence < minimum then _ else _) = _
  rw [if_neg (Nat.not_lt.mpr hle), advance_cons (token_ne_finish operator), hright]
  show (if max left.depth right.depth + 1 > MAX_EXPRESSION_DEPTH then _ else _) = _
  rw [if_neg (Nat.not_lt.mpr hdepth)]

lemma current_of_kinds {kind : TokenKind} {tokens : List TokenKind}
    (h : kinds front = kind :: tokens) :
    ∃ offset after, front = ⟨kind, offset⟩ :: after ∧ kinds after = tokens := by
  cases front with
  | nil => cases h
  | cons token after =>
    obtain ⟨kind', offset⟩ := token
    cases h
    exact ⟨offset, after, rfl, rfl⟩

lemma split_of_kinds {first second : List TokenKind}
    (h : kinds front = first ++ second) :
    ∃ before after, front = before ++ after ∧ kinds before = first ∧ kinds after = second := by
  obtain ⟨before, after, rfl, hbefore, hafter⟩ := List.map_eq_append_iff.mp h
  exact ⟨before, after, rfl, hbefore, hafter⟩

lemma single_of_kinds {kind : TokenKind} (h : kinds front = [kind]) :
    ∃ offset, front = [⟨kind, offset⟩] := by
  obtain ⟨offset, after, rfl, hafter⟩ := current_of_kinds h
  obtain rfl : after = [] := List.map_eq_nil_iff.mp hafter
  exact ⟨offset, rfl⟩

lemma parseUnary_of_ne (h : current tokens ≠ .not) (levels : Nat) :
    parseUnary (levels + 1) tokens = parsePrimary levels tokens := by
  unfold parseUnary
  split
  · rename_i hnot
    exact absurd hnot h
  · rfl

lemma primaryHead_name {nested : Nat → Parser ParsedExpression} {name : String}
    (hname : keyword name = none) (offset : Nat) (rest : List Token) :
    primaryHead nested (⟨.identifier name, offset⟩ :: rest) =
      match current rest with
      | .leftParen => parseCall (nested 0) name rest
      | _ => .ok (⟨.path [.property name], 1⟩, rest) := by
  unfold primaryHead
  dsimp only [current_cons]
  split
  · rename_i heq
    cases heq
    cases hname
  · rename_i heq
    cases heq
    cases hname
  · rename_i heq
    cases heq
    cases hname
  · rename_i heq
    cases heq
    rfl
  · rename_i heq
    cases heq
  · rename_i heq
    cases heq
  · rename_i heq
    cases heq
  · rename_i heq
    cases heq
  · rename_i hident _ _ _ _
    exact absurd rfl (hident name)

lemma parseCall_of_arguments {argument : Parser ParsedExpression} {name : String}
    {function : ExpressionFunction} (hfun : ExpressionFunction.parse name = some function)
    {arguments : List Expression} (harity : function.acceptsArity arguments.length = true)
    {depth : Nat} (open' close : Nat)
    (h : (match current tokens with
      | .rightParen => pure (([], 1), tokens)
      | _ => argumentLoop argument tokens.length 1 tokens) =
        Except.ok ((arguments, depth), ⟨.rightParen, close⟩ :: rest)) :
    parseCall argument name (⟨.leftParen, open'⟩ :: tokens) =
      .ok (⟨.call function arguments, depth⟩, rest) := by
  have hclose : (if function.acceptsArity arguments.length = true then
      (.ok (⟨.call function arguments, depth⟩, rest) :
        Except ExpressionError (ParsedExpression × List Token))
      else .error (error rest .compileInvalidExpression
        "Wrong number of expression function arguments.")) =
      .ok (⟨.call function arguments, depth⟩, rest) := if_pos harity
  unfold parseCall
  rw [hfun]
  dsimp only [advance]
  by_cases hright : current tokens = .rightParen
  · rw [hright] at h
    cases h
    exact hclose
  · have hother : ∀ {β : Type} (a b : β), (match current tokens with
        | .rightParen => a
        | _ => b) = b := by
      intro β a b
      cases hcur : current tokens <;> first | rfl | exact absurd hcur hright
    have hloop := (hother _ _).symm.trans h
    refine (hother _ _).trans ?_
    rw [hloop]
    exact hclose

/-- What the descent does with the tokens of a derivation: it reads them as a left side and
goes on with its loop. -/
def ReadsBinary (minimum : Nat) (tokens : List TokenKind) (value : ParsedExpression)
    (n : Nat) : Prop :=
  ∀ (levels lower : Nat) (front rest : List Token), kinds front = tokens → n ≤ levels + 1 →
    lower ≤ minimum → value.depth ≤ MAX_EXPRESSION_DEPTH → EndsPrimary rest →
    Stops (minimum + 1) rest →
    ∃ rounds, rest.length ≤ rounds ∧
      parseBinary (levels + 1) lower (front ++ rest) =
        binaryLoop (parseBinary levels) lower rounds value rest

lemma ReadsBinary.parse {minimum n levels : Nat} {tokens : List TokenKind}
    {value : ParsedExpression} (hreads : ReadsBinary minimum tokens value n) (hn : 1 ≤ n)
    (hle : n ≤ levels) (hdepth : value.depth ≤ MAX_EXPRESSION_DEPTH)
    (htokens : kinds front = tokens) (hends : EndsPrimary rest) (hstops : Stops minimum rest) :
    parseBinary levels minimum (front ++ rest) = .ok (value, rest) := by
  cases levels with
  | zero => omega
  | succ levels =>
    obtain ⟨rounds, -, hparse⟩ := hreads levels minimum front rest htokens hle (Nat.le_refl _)
      hdepth hends
      (hstops.mono (Nat.le_succ _))
    rw [hparse, binaryLoop_stops hstops]

lemma endsPrimary_closing {kind : TokenKind} {offset : Nat} {rest : List Token}
    (h : kind = .rightParen ∨ kind = .rightBracket ∨ kind = .comma ∨ kind = .finish) :
    EndsPrimary (⟨kind, offset⟩ :: rest) ∧ binaryOperator (⟨kind, offset⟩ :: rest) = none := by
  rcases h with rfl | rfl | rfl | rfl <;>
    exact ⟨⟨TokenKind.noConfusion, TokenKind.noConfusion, TokenKind.noConfusion⟩, rfl⟩

mutual

/-- **The loop takes up every left side.**  The induction is on the derivation: the loop has
read the left side of an operation when it comes to the operator. -/
lemma reads_binary {minimum n : Nat} {tokens : List TokenKind} {value : ParsedExpression} :
    BinaryDerives minimum tokens value n → ReadsBinary minimum tokens value n
  | .unary h => by
    intro levels lower front rest htokens hn hlower hdepth hends hstops
    refine ⟨rest.length, Nat.le_refl _, ?_⟩
    unfold parseBinary
    rw [reads_unary h levels front rest htokens (Nat.le_of_succ_le_succ hn) hdepth hends]
    rfl
  | @BinaryDerives.binary _ _ _ _ _ left right operator hprec hleft hright => by
    intro levels lower front rest htokens hn hlower hdepth hends hstops
    obtain ⟨before, more, rfl, hbefore, hmore⟩ := split_of_kinds htokens
    obtain ⟨offset, after, rfl, hafter⟩ := current_of_kinds hmore
    have hdepths : max left.depth right.depth + 1 ≤ MAX_EXPRESSION_DEPTH := hdepth
    obtain ⟨rounds, hrounds, hparse⟩ := reads_binary hleft levels lower before
      (⟨operator.token, offset⟩ :: (after ++ rest)) hbefore (by omega)
      (Nat.le_trans hlower hprec) (by omega) (endsPrimary_token ..)
      (fun operator' precedence' hop => by
        rw [binaryOperator_token] at hop
        cases hop
        exact Nat.lt_succ_self _)
    have hrightParse := ReadsBinary.parse (reads_binary hright) hright.one_le_levels
      (show _ ≤ levels by omega) (by omega) hafter hends
      (hstops.mono (Nat.succ_le_succ hprec))
    rw [List.length_cons, List.length_append] at hrounds
    cases rounds with
    | zero => omega
    | succ rounds =>
      refine ⟨rounds, by omega, ?_⟩
      rw [List.append_assoc, List.cons_append, hparse,
        binaryLoop_step (Nat.le_trans hlower hprec) rounds offset hrightParse hdepths]

lemma reads_unary {n : Nat} {tokens : List TokenKind} {value : ParsedExpression} :
    UnaryDerives tokens value n → ∀ (levels : Nat) (front rest : List Token),
      kinds front = tokens → n ≤ levels → value.depth ≤ MAX_EXPRESSION_DEPTH → EndsPrimary rest →
      parseUnary levels (front ++ rest) = .ok (value, rest)
  | @UnaryDerives.not _ _ value h => by
    intro levels front rest htokens hn hdepth hends
    obtain ⟨offset, after, rfl, hafter⟩ := current_of_kinds htokens
    have hdepths : value.depth + 1 ≤ MAX_EXPRESSION_DEPTH := hdepth
    cases levels with
    | zero => omega
    | succ levels =>
      have hinner := reads_unary h levels after rest hafter (Nat.le_of_succ_le_succ hn) (by omega)
        hends
      unfold parseUnary
      show (parseUnary levels (after ++ rest) >>= _) = _
      rw [hinner]
      show (if value.depth + 1 > MAX_EXPRESSION_DEPTH then _ else _) = _
      rw [if_neg (Nat.not_lt.mpr hdepths)]
      rfl
  | @UnaryDerives.primary _ _ depth _ _ head segs hhead hsuff => by
    intro levels front rest htokens hn hdepth hends
    have hdepths : max head.depth depth ≤ MAX_EXPRESSION_DEPTH := hdepth
    obtain ⟨before, after, rfl, hbefore, hafter⟩ := split_of_kinds htokens
    obtain ⟨kind, more, hstarts, hnot, -⟩ := hhead.starts
    have hcur : ∀ tokens, current (before ++ tokens) = kind := by
      obtain ⟨offset, others, rfl, -⟩ := current_of_kinds (hbefore.trans hstarts)
      exact fun _ => rfl
    have hafterParen : current (after ++ rest) ≠ .leftParen := by
      rcases hsuff.starts with hnone | ⟨kind', more', hsome, hparen⟩
      · obtain rfl : after = [] := List.map_eq_nil_iff.mp (hafter.trans hnone)
        exact hends.2.2
      · obtain ⟨offset, others, rfl, -⟩ := current_of_kinds (hafter.trans hsome)
        exact hparen
    have hgrouped : ∀ base front, head.expression = .access base front →
        (current (before ++ (after ++ rest)) == .leftParen) = true := by
      intro base front hbase
      obtain ⟨others, hparen⟩ := hhead.grouped hbase
      obtain ⟨offset, others, rfl, -⟩ := current_of_kinds (hbefore.trans hparen)
      rfl
    match levels, hn with
    | levels + 2, hn =>
      have hhead' := reads_head hhead levels before (after ++ rest) hbefore (by omega) (by omega)
        hafterParen
      have hloop := reads_suffixes hsuff levels (after ++ rest).length head.depth
        head.expression (current (before ++ (after ++ rest)) == .leftParen) after rest hafter
        (by omega) (by omega) (by rw [List.length_append]; omega) hends
      rw [List.append_assoc, parseUnary_of_ne (by rw [hcur]; exact hnot)]
      show primary (parseBinary levels) _ = _
      unfold primary
      rw [hhead']
      show (accessLoop _ _ _ _ _ _ >>= _) = _
      rw [hloop, pushAll_eq_attach _ _ _ hgrouped]
      show (if max head.depth depth > MAX_EXPRESSION_DEPTH then _ else _) = _
      rw [if_neg (Nat.not_lt.mpr hdepths)]
      rfl

lemma reads_head {n : Nat} {tokens : List TokenKind} {value : ParsedExpression} :
    HeadDerives tokens value n → ∀ (levels : Nat) (front rest : List Token),
      kinds front = tokens → n ≤ levels → value.depth ≤ MAX_EXPRESSION_DEPTH →
      current rest ≠ .leftParen →
      primaryHead (parseBinary levels) (front ++ rest) = .ok (value, rest)
  | .string _ | .number _ => by
    intro levels front rest htokens hn hdepth hparen
    obtain ⟨offset, rfl⟩ := single_of_kinds htokens
    rfl
  | .keyword h => by
    intro levels front rest htokens hn hdepth hparen
    obtain ⟨offset, rfl⟩ := single_of_kinds htokens
    unfold keyword at h
    split at h <;> cases h <;> rfl
  | .root h => by
    intro levels front rest htokens hn hdepth hparen
    obtain ⟨offset, rfl⟩ := single_of_kinds htokens
    show primaryHead _ (⟨.identifier _, offset⟩ :: rest) = _
    rw [primaryHead_name h]
    split
    · rename_i hcur
      exact absurd hcur hparen
    · rfl
  | .group h => by
    intro levels front rest htokens hn hdepth hparen
    obtain ⟨open', more, rfl, hmore⟩ := current_of_kinds htokens
    obtain ⟨inner, last, rfl, hinner, hlast⟩ := split_of_kinds hmore
    obtain ⟨close, rfl⟩ := single_of_kinds hlast
    have hends := @endsPrimary_closing _ close rest (.inl rfl)
    have hparse := (reads_binary h).parse h.one_le_levels hn hdepth hinner hends.1
      (stops_of_none hends.2)
    rw [List.cons_append, List.append_assoc, List.singleton_append]
    show (parseBinary levels 0 (inner ++ ⟨.rightParen, close⟩ :: rest) >>= _) = _
    rw [hparse]
    rfl
  | @HeadDerives.call _ _ _ _ _ args hname hfun h harity => by
    intro levels front rest htokens hn hdepth hparen
    obtain ⟨offset, more, rfl, hmore⟩ := current_of_kinds htokens
    obtain ⟨open', within, rfl, hwithin⟩ := current_of_kinds hmore
    obtain ⟨inner, last, rfl, hinner, hlast⟩ := split_of_kinds hwithin
    obtain ⟨close, rfl⟩ := single_of_kinds hlast
    show primaryHead _ (⟨.identifier _, offset⟩ :: ⟨.leftParen, open'⟩ ::
      (inner ++ [⟨.rightParen, close⟩] ++ rest)) = _
    rw [primaryHead_name hname, List.append_assoc, List.singleton_append]
    refine parseCall_of_arguments hfun harity open' close ?_
    by_cases hnone : args = []
    · subst hnone
      cases h
      obtain rfl : inner = [] := List.map_eq_nil_iff.mp hinner
      rfl
    · obtain ⟨kind, others, hstart, hkind⟩ := h.starts hnone
      have hcur : ∀ tokens, current (inner ++ tokens) = kind := by
        obtain ⟨_, _, rfl, -⟩ := current_of_kinds (hinner.trans hstart)
        exact fun _ => rfl
      have hloop := reads_arguments h levels (inner ++ ⟨.rightParen, close⟩ :: rest).length 1 inner
        (⟨.rightParen, close⟩ :: rest) hinner hnone hn hdepth
        (Nat.le_of_eq List.length_append.symm) rfl
      split
      · rename_i hempty
        exact absurd ((hcur _).symm.trans hempty) hkind
      · rw [hloop, Nat.max_eq_right h.one_le_depth]

lemma reads_arguments {d n : Nat} {tokens : List TokenKind} {args : List Expression} :
    ArgumentsDerive tokens args d n → ∀ (levels rounds depth : Nat) (front rest : List Token),
      kinds front = tokens → args ≠ [] → n ≤ levels → d ≤ MAX_EXPRESSION_DEPTH →
      front.length + rest.length ≤ rounds → current rest = .rightParen →
      argumentLoop (parseBinary levels 0) rounds depth (front ++ rest) =
        .ok ((args, max depth d), rest)
  | .none => fun _ _ _ _ _ _ hne => absurd rfl hne
  | .last h => by
    intro levels rounds depth front rest htokens hne hn hdepth hrounds hright
    obtain ⟨close, hrest⟩ := eq_cons_of_current hright (by exact TokenKind.noConfusion)
    have hends := @endsPrimary_closing _ close (advance rest) (.inl rfl)
    rw [← hrest] at hends
    have hparse := (reads_binary h).parse h.one_le_levels hn (by omega) htokens hends.1
      (stops_of_none hends.2)
    cases rounds with
    | zero =>
      rw [hrest, List.length_cons] at hrounds
      omega
    | succ rounds =>
      unfold argumentLoop
      rw [hparse]
      show (match current rest with | .comma => _ | _ => _) = _
      rw [hright]
      rfl
  | @ArgumentsDerive.more _ _ d _ _ value _ h hne hothers => by
    intro levels rounds depth front rest htokens _ hn hdepth hrounds hright
    obtain ⟨before, more, rfl, hbefore, hmore⟩ := split_of_kinds htokens
    obtain ⟨comma, after, rfl, hafter⟩ := current_of_kinds hmore
    have hdepths : max (value.depth + 1) d ≤ MAX_EXPRESSION_DEPTH := hdepth
    have hends := @endsPrimary_closing _ comma (after ++ rest)
      (.inr (.inr (.inl rfl)))
    have hparse := (reads_binary h).parse h.one_le_levels (show _ ≤ levels by omega) (by omega)
      hbefore hends.1 (stops_of_none hends.2)
    rw [List.length_append, List.length_cons] at hrounds
    cases rounds with
    | zero => omega
    | succ rounds =>
      have hloop := reads_arguments hothers levels rounds (max depth (value.depth + 1)) after rest
        hafter hne (by omega) (by omega) (by omega) hright
      rw [List.append_assoc, List.cons_append]
      unfold argumentLoop
      rw [hparse]
      show (argumentLoop _ _ _ (after ++ rest) >>= _) = _
      rw [hloop, ← Nat.max_assoc]
      rfl

lemma reads_suffixes {d n : Nat} {tokens : List TokenKind}
    {segs : List AccessSegment} :
    SuffixesDerive tokens segs d n → ∀ (levels rounds depth : Nat) (expr : Expression)
      (grouped : Bool) (front rest : List Token),
      kinds front = tokens → n ≤ levels → d ≤ MAX_EXPRESSION_DEPTH → front.length ≤ rounds →
      EndsPrimary rest →
      accessLoop (parseBinary levels 0) rounds expr grouped depth (front ++ rest) =
        .ok (⟨pushAll expr grouped segs, max depth d⟩, rest)
  | .none => by
    intro levels rounds depth expr grouped front rest htokens hn hdepth hrounds hends
    obtain rfl : front = [] := List.map_eq_nil_iff.mp htokens
    rw [Nat.max_zero]
    cases rounds with
    | zero => rfl
    | succ rounds =>
      rw [List.nil_append]
      unfold accessLoop
      split
      · rename_i hdot
        exact absurd hdot hends.1
      · rename_i hbrk
        exact absurd hbrk hends.2.1
      · rename_i hparen
        exact absurd hparen hends.2.2
      · rfl
  | .named name h => by
    intro levels rounds depth expr grouped front rest htokens hn hdepth hrounds hends
    obtain ⟨dot, more, rfl, hmore⟩ := current_of_kinds htokens
    obtain ⟨offset, after, rfl, hafter⟩ := current_of_kinds hmore
    rw [List.length_cons, List.length_cons] at hrounds
    cases rounds with
    | zero => omega
    | succ rounds =>
      exact reads_suffixes h levels rounds depth
        (pushAccess expr (.property name) grouped) false after rest hafter hn hdepth
        (by omega) hends
  | .projected h => by
    intro levels rounds depth expr grouped front rest htokens hn hdepth hrounds hends
    obtain ⟨dot, more, rfl, hmore⟩ := current_of_kinds htokens
    obtain ⟨offset, after, rfl, hafter⟩ := current_of_kinds hmore
    rw [List.length_cons, List.length_cons] at hrounds
    cases rounds with
    | zero => omega
    | succ rounds =>
      exact reads_suffixes h levels rounds depth (pushAccess expr .projection grouped) false
        after rest hafter hn hdepth (by omega) hends
  | @SuffixesDerive.bracketed d _ _ _ _ value _ hinner h => by
    intro levels rounds depth expr grouped front rest htokens hn hdepth hrounds hends
    obtain ⟨open', more, rfl, hmore⟩ := current_of_kinds htokens
    obtain ⟨inner, last, rfl, hinnerTokens, hlast⟩ := split_of_kinds hmore
    obtain ⟨close, after, rfl, hafter⟩ := current_of_kinds hlast
    have hdepths : max (value.depth + 1) d ≤ MAX_EXPRESSION_DEPTH := hdepth
    have hclos := @endsPrimary_closing _ close (after ++ rest)
      (.inr (.inl rfl))
    have hparse := (reads_binary hinner).parse hinner.one_le_levels
      (show _ ≤ levels by omega) (by omega) hinnerTokens hclos.1 (stops_of_none hclos.2)
    rw [List.length_cons, List.length_append, List.length_cons] at hrounds
    cases rounds with
    | zero => omega
    | succ rounds =>
      have hrest := reads_suffixes h levels rounds (max depth (value.depth + 1))
        (pushAccess expr (bracketSegment value.expression) grouped) false after rest hafter
        (by omega) (by omega) (by omega) hends
      rw [List.cons_append, List.append_assoc, List.cons_append]
      show (parseBinary levels 0 (inner ++ ⟨.rightBracket, close⟩ :: (after ++ rest)) >>= _) = _
      rw [hparse]
      rw [← Nat.max_assoc]
      exact hrest

end

end Parser

/-! ### The parser implements the grammar -/

/-- `parse_expression` behind the lexer. -/
def parseTokens (tokens : List Token) : Except ExpressionError Expression := do
  let (value, tokens) ← Parser.parseBinary (MAX_EXPRESSION_PARSE_DEPTH + 1) 0 tokens
  match Parser.current tokens with
  | .finish => return value.expression
  | _ => throw (Parser.error tokens .compileInvalidExpression
      "Unexpected content after the expression.")

def sentence (tokens : List Token) : List TokenKind :=
  (Parser.kinds tokens).takeWhile (· != .finish)

lemma sentence_append {front rest : List Token} (hfront : .finish ∉ Parser.kinds front)
    (hrest : Parser.current rest = .finish) : sentence (front ++ rest) = Parser.kinds front := by
  have hnone : (Parser.kinds rest).takeWhile (· != .finish) = [] := by
    cases rest with
    | nil => rfl
    | cons token rest =>
      obtain ⟨kind, offset⟩ := token
      cases hrest
      rfl
  have hall : ∀ kind ∈ Parser.kinds front, (kind != .finish) = true := by
    intro kind hmem
    rw [bne_iff_ne]
    rintro rfl
    exact hfront hmem
  rw [sentence, Parser.kinds_append, List.takeWhile_append_of_pos hall, hnone, List.append_nil]

lemma exists_sentence (tokens : List Token) :
    ∃ front rest, tokens = front ++ rest ∧ Parser.kinds front = sentence tokens ∧
      Parser.current rest = .finish := by
  induction tokens with
  | nil => exact ⟨[], [], rfl, rfl, rfl⟩
  | cons token tokens ih =>
    obtain ⟨kind, offset⟩ := token
    by_cases hkind : kind = .finish
    · subst hkind
      exact ⟨[], ⟨.finish, offset⟩ :: tokens, rfl, rfl, rfl⟩
    · obtain ⟨front, rest, htokens, hfront, hrest⟩ := ih
      refine ⟨⟨kind, offset⟩ :: front, rest, by rw [htokens, List.cons_append], ?_, hrest⟩
      have hkeep : (kind != .finish) = true := bne_iff_ne.mpr hkind
      rw [Parser.kinds_cons, hfront, sentence, sentence, Parser.kinds_cons, List.takeWhile_cons,
        if_pos hkeep]

/-- **The parser accepts exactly the sentences within its limits, with the tree that the
grammar assigns.** -/
lemma parseTokens_eq_ok {expr : Expression} :
    parseTokens tokens = .ok expr ↔
      ∃ depth levels, BinaryDerives 0 (sentence tokens) ⟨expr, depth⟩ levels ∧
        depth ≤ MAX_EXPRESSION_DEPTH ∧ levels ≤ MAX_EXPRESSION_PARSE_DEPTH + 1 := by
  constructor
  · intro h
    obtain ⟨⟨⟨value, depth⟩, rest⟩, hparse, hend⟩ := Except.of_bind_ok h
    obtain ⟨front, hfront, -, hdepth, levels, hlevels, hder⟩ :=
      (Parser.sound_parse _).1 0 _ _ _ hparse
    dsimp only at hend
    split at hend
    · rename_i hrest
      cases hend
      rw [hfront, sentence_append hder.unfinished hrest]
      exact ⟨depth, levels, hder, hdepth, hlevels⟩
    · cases hend
  · rintro ⟨depth, levels, hder, hdepth, hlevels⟩
    obtain ⟨front, rest, htokens, hfront, hrest⟩ := exists_sentence tokens
    have hends : Parser.EndsPrimary rest := by
      refine ⟨?_, ?_, ?_⟩ <;> rw [hrest] <;> exact TokenKind.noConfusion
    have hnone : Parser.binaryOperator rest = none := by
      rw [Parser.binaryOperator, hrest]
    have hparse := (Parser.reads_binary hder).parse hder.one_le_levels hlevels hdepth hfront
      hends (Parser.stops_of_none hnone)
    rw [parseTokens, htokens, hparse]
    show (match Parser.current rest with | .finish => _ | _ => _) = _
    rw [hrest]
    rfl

end Antiburn
