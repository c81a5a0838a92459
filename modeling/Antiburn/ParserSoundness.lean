/-
What the parser returns is derived by the grammar.

The parser climbs precedences in one loop.  The invariant of the loop is that
what it has read is a left side for the operator that comes next: the right
side has read on as far as its own precedence allows.
-/
import Antiburn.Grammar
import Antiburn.Lib.Except

namespace Antiburn

namespace Parser

/-! ### Tokens -/

def kinds (tokens : List Token) : List TokenKind := tokens.map Token.kind

@[simp] lemma kinds_cons (token : Token) (tokens : List Token) :
    kinds (token :: tokens) = token.kind :: kinds tokens := rfl

@[simp] lemma kinds_append (front rest : List Token) :
    kinds (front ++ rest) = kinds front ++ kinds rest := List.map_append

@[simp] lemma current_cons (kind : TokenKind) (offset : Nat) (rest : List Token) :
    current (⟨kind, offset⟩ :: rest) = kind := rfl

lemma advance_cons {kind : TokenKind} (h : kind ≠ .finish) (offset : Nat) (rest : List Token) :
    advance (⟨kind, offset⟩ :: rest) = rest := by
  cases kind with
  | finish => exact absurd rfl h
  | _ => rfl

lemma eq_cons_of_current {tokens : List Token} {kind : TokenKind}
    (h : current tokens = kind) (hne : kind ≠ .finish) :
    ∃ offset, tokens = ⟨kind, offset⟩ :: advance tokens := by
  cases tokens with
  | nil => exact absurd h.symm hne
  | cons token rest =>
    obtain ⟨kind', offset⟩ := token
    cases h
    refine ⟨offset, ?_⟩
    have hne' : kind' ≠ .finish := hne
    show ⟨kind', offset⟩ :: rest = ⟨kind', offset⟩ :: advance (⟨kind', offset⟩ :: rest)
    rw [advance_cons hne']

lemma token_ne_finish (operator : BinaryOperator) : operator.token ≠ .finish := by
  cases operator <;> exact TokenKind.noConfusion

lemma binaryOperator_eq_some {tokens : List Token} {operator : BinaryOperator}
    {precedence : Nat} (h : binaryOperator tokens = some (operator, precedence)) :
    current tokens = operator.token ∧ precedence = operator.precedence := by
  unfold binaryOperator at h
  split at h <;> cases h <;> exact ⟨by assumption, rfl⟩

@[simp] lemma binaryOperator_token (operator : BinaryOperator) (offset : Nat)
    (rest : List Token) :
    binaryOperator (⟨operator.token, offset⟩ :: rest) =
      some (operator, operator.precedence) := by
  cases operator <;> rfl

/-- No operator of at least this precedence comes next. -/
def Stops (minimum : Nat) (tokens : List Token) : Prop :=
  ∀ operator precedence, binaryOperator tokens = some (operator, precedence) →
    precedence < minimum

/-! ### The parser finds derivations -/

/-- What the parser of binary expressions returns is derived, and it has read on as far as
it can. -/
def SoundBinary (parser : Parser ParsedExpression) (minimum levels : Nat) : Prop :=
  ∀ tokens value rest, parser tokens = .ok (value, rest) →
    ∃ front, tokens = front ++ rest ∧ Stops minimum rest ∧ value.depth ≤ MAX_EXPRESSION_DEPTH ∧
      ∃ n ≤ levels, BinaryDerives minimum (kinds front) value n

section Sound

variable {levels : Nat}

lemma sound_binaryLoop {operand : Nat → Parser ParsedExpression}
    (hoperand : ∀ minimum, SoundBinary (operand minimum) minimum levels) {minimum : Nat} :
    ∀ (rounds : Nat) {left value : ParsedExpression} {n : Nat} {read : List TokenKind}
      {tokens rest : List Token}, tokens.length ≤ rounds → n ≤ levels + 1 →
      left.depth ≤ MAX_EXPRESSION_DEPTH → BinaryDerives minimum read left n →
      (∀ operator precedence, binaryOperator tokens = some (operator, precedence) →
        BinaryDerives precedence read left n) →
      binaryLoop operand minimum rounds left tokens = .ok (value, rest) →
      ∃ front, tokens = front ++ rest ∧ Stops minimum rest ∧ value.depth ≤ MAX_EXPRESSION_DEPTH ∧
        ∃ n ≤ levels + 1, BinaryDerives minimum (read ++ kinds front) value n := by
  intro rounds
  induction rounds with
  | zero =>
    intro left value n read tokens rest hlen hn hdepth hleft hnext h
    obtain rfl : tokens = [] := List.length_eq_zero_iff.mp (Nat.le_zero.mp hlen)
    cases h
    refine ⟨[], rfl, fun operator precedence hop => (by cases hop), hdepth, n, hn, ?_⟩
    rwa [kinds, List.map_nil, List.append_nil]
  | succ rounds ih =>
    intro left value n read tokens rest hlen hn hdepth hleft hnext h
    have hdone : binaryOperator tokens = none ∨ (∃ operator precedence,
        binaryOperator tokens = some (operator, precedence) ∧ precedence < minimum) →
        (left, tokens) = (value, rest) →
        ∃ front, tokens = front ++ rest ∧ Stops minimum rest ∧
          value.depth ≤ MAX_EXPRESSION_DEPTH ∧
          ∃ n ≤ levels + 1, BinaryDerives minimum (read ++ kinds front) value n := by
      rintro hstop heq
      cases heq
      refine ⟨[], rfl, fun operator precedence hop => ?_, hdepth, n, hn, ?_⟩
      · rcases hstop with hstop | ⟨operator', precedence', hstop, hlt⟩
        · rw [hstop] at hop
          cases hop
        · rw [hstop] at hop
          cases hop
          exact hlt
      · rwa [kinds, List.map_nil, List.append_nil]
    unfold binaryLoop at h
    split at h
    · rename_i hnone
      exact hdone (.inl hnone) (Except.ok.inj h)
    · rename_i operator precedence hoper
      split_ifs at h with hlow
      · exact hdone (.inr ⟨operator, precedence, hoper, hlow⟩) (Except.ok.inj h)
      · obtain ⟨⟨right, after⟩, hright, hloop⟩ := Except.of_bind_ok h
        dsimp only at hloop
        split_ifs at hloop with hdeep
        · cases hloop
        · have hleft' := hnext operator precedence hoper
          obtain ⟨hcur, rfl⟩ := binaryOperator_eq_some hoper
          obtain ⟨offset, htokens⟩ := eq_cons_of_current hcur (token_ne_finish operator)
          obtain ⟨front, hfront, hstops, -, m, hm, hder⟩ := hoperand _ _ _ _ hright
          have hbinary := BinaryDerives.binary operator (Nat.le_refl _) hleft' hder
          have hnext' : ∀ operator' precedence', binaryOperator after = some (operator', precedence') →
              BinaryDerives precedence' (read ++ operator.token :: kinds front)
                ⟨.binary operator left.expression right.expression,
                  max left.depth right.depth + 1⟩ (max n (m + 1)) :=
            fun operator' precedence' hop =>
              hbinary.weaken (Nat.lt_succ_iff.mp (hstops operator' precedence' hop))
          have hshort : after.length ≤ rounds := by
            rw [htokens, hfront, List.length_cons, List.length_append] at hlen
            omega
          obtain ⟨more, hmore, hstops', hdepth', n', hn', hresult⟩ := ih hshort
            (by omega) (Nat.not_lt.mp hdeep) (hbinary.weaken (Nat.not_lt.mp hlow)) hnext' hloop
          refine ⟨⟨operator.token, offset⟩ :: (front ++ more), ?_, hstops', hdepth', n', hn', ?_⟩
          · rw [htokens, hfront, hmore, List.cons_append, List.append_assoc]
          · rw [kinds_cons, kinds_append]
            rwa [List.append_assoc, List.cons_append] at hresult

variable {nested : Nat → Parser ParsedExpression} {argument : Parser ParsedExpression}

lemma sound_argumentLoop
    (harg : SoundBinary argument 0 levels) :
    ∀ (rounds : Nat) {depth depth' : Nat} {args : List Expression} {tokens rest : List Token},
      tokens.length ≤ rounds → rest ≠ [] →
      argumentLoop argument rounds depth tokens = .ok ((args, depth'), rest) →
      ∃ front d n, tokens = front ++ rest ∧ args ≠ [] ∧ depth' = max depth d ∧ n ≤ levels ∧
        ArgumentsDerive (kinds front) args d n := by
  intro rounds
  induction rounds with
  | zero =>
    intro depth depth' args tokens rest hlen hrest h
    obtain rfl : tokens = [] := List.length_eq_zero_iff.mp (Nat.le_zero.mp hlen)
    cases h
    exact absurd rfl hrest
  | succ rounds ih =>
    intro depth depth' args tokens rest hlen hrest h
    obtain ⟨⟨value, after⟩, hvalue, h⟩ := Except.of_bind_ok h
    obtain ⟨front, hfront, -, -, n, hn, hder⟩ := harg _ _ _ hvalue
    dsimp only at h
    split at h
    · rename_i hcomma
      obtain ⟨offset, hafter⟩ := eq_cons_of_current hcomma (by exact TokenKind.noConfusion)
      obtain ⟨⟨⟨others, total⟩, last⟩, hothers, h⟩ := Except.of_bind_ok h
      cases h
      have hshort : (advance after).length ≤ rounds := by
        rw [hfront, hafter, List.length_append, List.length_cons] at hlen
        omega
      obtain ⟨more, d, m, hmore, hne, rfl, hm, hmoreDerives⟩ := ih hshort hrest hothers
      refine ⟨front ++ ⟨.comma, offset⟩ :: more, max (value.depth + 1) d, max n m, ?_, by simp,
        Nat.max_assoc .., by omega, ?_⟩
      · rw [hfront, hafter, hmore, List.append_assoc, List.cons_append]
      · rw [kinds_append, kinds_cons]
        exact .more hder hne hmoreDerives
    · cases h
      exact ⟨front, value.depth + 1, n, hfront, by simp, rfl, hn, .last hder⟩

lemma sound_parseCall
    (harg : SoundBinary argument 0 levels) {name : String} (hname : keyword name = none)
    {tokens rest : List Token} {value : ParsedExpression} (hparen : current tokens = .leftParen)
    (h : parseCall argument name tokens = .ok (value, rest)) (offset : Nat) :
    ∃ front n, tokens = front ++ rest ∧ n ≤ levels ∧
      HeadDerives (kinds (⟨.identifier name, offset⟩ :: front)) value n ∧
      ∃ function arguments, value.expression = .call function arguments := by
  unfold parseCall at h
  split at h
  · cases h
  · rename_i function hfun
    obtain ⟨open', htokens⟩ := eq_cons_of_current hparen (by exact TokenKind.noConfusion)
    have hclose : ∀ {arguments : List Expression} {depth n : Nat} {inner after : List Token},
        advance tokens = inner ++ after → n ≤ levels →
        ArgumentsDerive (kinds inner) arguments depth n → current after = .rightParen →
        (if function.acceptsArity arguments.length = true then
          (.ok (⟨.call function arguments, depth⟩, advance after) :
            Except ExpressionError (ParsedExpression × List Token))
        else .error (error (advance after) .compileInvalidExpression
          "Wrong number of expression function arguments.")) = .ok (value, rest) →
        ∃ front n, tokens = front ++ rest ∧ n ≤ levels ∧
          HeadDerives (kinds (⟨.identifier name, offset⟩ :: front)) value n ∧
          ∃ function arguments, value.expression = .call function arguments := by
      intro arguments depth n inner after hinner hn hargs hright h
      split_ifs at h with harity
      cases h
      obtain ⟨close, hafter⟩ := eq_cons_of_current hright (by exact TokenKind.noConfusion)
      refine ⟨⟨.leftParen, open'⟩ :: (inner ++ [⟨.rightParen, close⟩]), n, ?_, hn, ?_,
        function, arguments, rfl⟩
      · rw [htokens, hinner, hafter]
        simp [advance]
      · simp only [kinds_cons, kinds_append]
        exact .call hname hfun hargs harity
    dsimp only at h
    split at h
    · rename_i hempty
      obtain ⟨⟨⟨arguments, depth⟩, after⟩, hargs, h⟩ := Except.of_bind_ok h
      cases hargs
      dsimp only at h
      rw [hempty] at h
      exact @hclose [] 1 0 [] _ rfl (Nat.zero_le _) .none hempty h
    · obtain ⟨⟨⟨arguments, depth⟩, after⟩, hargs, h⟩ := Except.of_bind_ok h
      dsimp only at h
      split at h
      · rename_i hright
        have hafter : after ≠ [] := by
          rintro rfl
          cases hright
        obtain ⟨inner, d, n, hinner, hne, rfl, hn, hder⟩ :=
          sound_argumentLoop harg _ (Nat.le_refl _) hafter hargs
        rw [Nat.max_eq_right hder.one_le_depth] at h
        exact hclose hinner hn hder hright h
      · cases h

lemma sound_accessLoop {selector : Parser ParsedExpression}
    (hselr : SoundBinary selector 0 levels) :
    ∀ (rounds : Nat) {expr : Expression} {grouped : Bool} {depth : Nat}
      {value : ParsedExpression} {tokens rest : List Token},
      accessLoop selector rounds expr grouped depth tokens = .ok (value, rest) →
      ∃ front segs d n, tokens = front ++ rest ∧ n ≤ levels ∧
        SuffixesDerive (kinds front) segs d n ∧
        value = ⟨pushAll expr grouped segs, max depth d⟩ := by
  intro rounds
  induction rounds with
  | zero =>
    intro expr grouped depth value tokens rest h
    cases h
    exact ⟨[], [], 0, 0, rfl, Nat.zero_le _, .none, by rw [Nat.max_zero]; rfl⟩
  | succ rounds ih =>
    intro expr grouped depth value tokens rest h
    unfold accessLoop at h
    split at h
    · rename_i hdot
      obtain ⟨dot, htokens⟩ := eq_cons_of_current hdot (by exact TokenKind.noConfusion)
      split at h
      · rename_i name hname
        obtain ⟨offset, hadvance⟩ := eq_cons_of_current hname (by exact TokenKind.noConfusion)
        obtain ⟨front, segs, d, n, hfront, hn, hder, hvalue⟩ := ih h
        refine ⟨⟨.dot, dot⟩ :: ⟨.identifier name, offset⟩ :: front, .property name :: segs, d, n,
          ?_, hn, .named name hder, hvalue⟩
        rw [htokens, hadvance, hfront]
        rfl
      · rename_i hstar
        obtain ⟨offset, hadvance⟩ := eq_cons_of_current hstar (by exact TokenKind.noConfusion)
        obtain ⟨front, segs, d, n, hfront, hn, hder, hvalue⟩ := ih h
        refine ⟨⟨.dot, dot⟩ :: ⟨.star, offset⟩ :: front, .projection :: segs, d, n, ?_, hn,
          .projected hder, hvalue⟩
        rw [htokens, hadvance, hfront]
        rfl
      · cases h
    · rename_i hbrk
      obtain ⟨open', htokens⟩ := eq_cons_of_current hbrk (by exact TokenKind.noConfusion)
      obtain ⟨⟨inner, after⟩, hinner, h⟩ := Except.of_bind_ok h
      obtain ⟨read, hread, -, -, m, hm, hinnerDerives⟩ := hselr _ _ _ hinner
      dsimp only at h
      split at h
      · rename_i hright
        obtain ⟨close, hafter⟩ := eq_cons_of_current hright (by exact TokenKind.noConfusion)
        obtain ⟨front, segs, d, n, hfront, hn, hder, hvalue⟩ := ih h
        refine ⟨⟨.leftBracket, open'⟩ :: (read ++ ⟨.rightBracket, close⟩ :: front),
          bracketSegment inner.expression :: segs, max (inner.depth + 1) d, max m n, ?_,
          Nat.max_le.mpr ⟨hm, hn⟩, ?_, ?_⟩
        · rw [htokens, hread, hafter, hfront]
          simp
        · rw [kinds_cons, kinds_append, kinds_cons]
          exact .bracketed hinnerDerives hder
        · rw [hvalue, Nat.max_assoc]
          rfl
      · cases h
    · cases h
    · cases h
      exact ⟨[], [], 0, 0, rfl, Nat.zero_le _, .none, by rw [Nat.max_zero]; rfl⟩

section

variable (hnested : ∀ minimum, SoundBinary (nested minimum) minimum levels)
  {tokens rest : List Token} {value : ParsedExpression}
include hnested

lemma sound_primaryHead (h : primaryHead nested tokens = .ok (value, rest)) :
    ∃ front n, tokens = front ++ rest ∧ n ≤ levels ∧ HeadDerives (kinds front) value n ∧
      ∀ base segs, value.expression = .access base segs → current tokens = .leftParen := by
  have hsingle : ∀ {kind : TokenKind} {read : ParsedExpression}, current tokens = kind →
      kind ≠ .finish → HeadDerives [kind] read 0 →
      (∀ base segs, read.expression ≠ .access base segs) →
      (read, advance tokens) = (value, rest) →
      ∃ front n, tokens = front ++ rest ∧ n ≤ levels ∧ HeadDerives (kinds front) value n ∧
        ∀ base segs, value.expression = .access base segs →
          current tokens = .leftParen := by
    intro kind read hcur hne hder haccess heq
    cases heq
    obtain ⟨offset, htokens⟩ := eq_cons_of_current hcur hne
    exact ⟨[⟨kind, offset⟩], 0, htokens, Nat.zero_le _, hder,
      fun base segs hbase => absurd hbase (haccess base segs)⟩
  unfold primaryHead at h
  dsimp only at h
  split at h
  · rename_i hcur
    exact hsingle hcur (by exact TokenKind.noConfusion) (.keyword rfl)
      (by exact fun _ _ => Expression.noConfusion) (Except.ok.inj h)
  · rename_i hcur
    exact hsingle hcur (by exact TokenKind.noConfusion) (.keyword rfl)
      (by exact fun _ _ => Expression.noConfusion) (Except.ok.inj h)
  · rename_i hcur
    exact hsingle hcur (by exact TokenKind.noConfusion) (.keyword rfl)
      (by exact fun _ _ => Expression.noConfusion) (Except.ok.inj h)
  · rename_i name htrue hfalse hnull hcur
    have hname : keyword name = none := by
      unfold keyword
      split
      · exact absurd rfl htrue
      · exact absurd rfl hfalse
      · exact absurd rfl hnull
      · rfl
    split at h
    · rename_i hparen
      obtain ⟨offset, htokens⟩ := eq_cons_of_current hcur (by exact TokenKind.noConfusion)
      obtain ⟨front, n, hfront, hn, hder, function, args, hcall⟩ :=
        sound_parseCall (hnested 0) hname hparen h offset
      refine ⟨⟨.identifier name, offset⟩ :: front, n, ?_, hn, hder, fun base segs hbase => ?_⟩
      · rw [htokens, hfront]
        rfl
      · rw [hcall] at hbase
        cases hbase
    · exact hsingle hcur (by exact TokenKind.noConfusion) (.root hname)
        (by exact fun _ _ => Expression.noConfusion) (Except.ok.inj h)
  · rename_i text hcur
    exact hsingle hcur (by exact TokenKind.noConfusion) (.string text)
      (by exact fun _ _ => Expression.noConfusion) (Except.ok.inj h)
  · rename_i number hcur
    exact hsingle hcur (by exact TokenKind.noConfusion) (.number number)
      (by exact fun _ _ => Expression.noConfusion) (Except.ok.inj h)
  · rename_i hparen
    obtain ⟨open', htokens⟩ := eq_cons_of_current hparen (by exact TokenKind.noConfusion)
    obtain ⟨⟨inner, after⟩, hinner, h⟩ := Except.of_bind_ok h
    obtain ⟨front, hfront, -, -, n, hn, hder⟩ := hnested 0 _ _ _ hinner
    dsimp only at h
    split at h
    · rename_i hright
      obtain ⟨close, hafter⟩ := eq_cons_of_current hright (by exact TokenKind.noConfusion)
      cases h
      refine ⟨⟨.leftParen, open'⟩ :: (front ++ [⟨.rightParen, close⟩]), n, ?_, hn, ?_,
        fun _ _ _ => hparen⟩
      · rw [htokens, hfront, hafter]
        simp [advance]
      · rw [kinds_cons, kinds_append]
        exact .group hder
    · cases h
  · cases h
  · cases h

lemma sound_primary (h : primary nested tokens = .ok (value, rest)) :
    ∃ front n, tokens = front ++ rest ∧ n ≤ levels ∧ value.depth ≤ MAX_EXPRESSION_DEPTH ∧
      UnaryDerives (kinds front) value (n + 2) := by
  unfold primary at h
  obtain ⟨⟨head, after⟩, hhead, h⟩ := Except.of_bind_ok h
  obtain ⟨⟨whole, last⟩, hwhole, h⟩ := Except.of_bind_ok h
  obtain ⟨front, n, hfront, hn, hder, hgrouped⟩ := sound_primaryHead hnested hhead
  obtain ⟨more, segs, d, m, hmore, hm, hsuff, hvalue⟩ :=
    sound_accessLoop (hnested 0) _ hwhole
  dsimp only at h
  split_ifs at h with hdeep
  · cases h
  · cases h
    refine ⟨front ++ more, max n m, ?_, Nat.max_le.mpr ⟨hn, hm⟩, Nat.not_lt.mp hdeep, ?_⟩
    · rw [hfront, hmore, List.append_assoc]
    · have hattach := pushAll_eq_attach head.expression (current tokens == .leftParen) segs
        fun base front hbase => beq_iff_eq.mpr (hgrouped base front hbase)
      rw [hvalue, hattach, kinds_append]
      exact .primary hder hsuff

end

/-- **What the parser returns is derived.** -/
lemma sound_parse (levels : Nat) :
    (∀ minimum, SoundBinary (parseBinary levels minimum) minimum levels) ∧
      (∀ tokens value rest, parseUnary levels tokens = .ok (value, rest) →
        ∃ front n, tokens = front ++ rest ∧ n ≤ levels ∧ value.depth ≤ MAX_EXPRESSION_DEPTH ∧
          UnaryDerives (kinds front) value n) ∧
      ∀ tokens value rest, parsePrimary levels tokens = .ok (value, rest) →
        ∃ front n, tokens = front ++ rest ∧ n ≤ levels ∧ value.depth ≤ MAX_EXPRESSION_DEPTH ∧
          UnaryDerives (kinds front) value (n + 1) := by
  induction levels with
  | zero =>
    refine ⟨?_, ?_, ?_⟩
    · intro minimum tokens value rest h
      cases h
    · intro tokens value rest h
      cases h
    · intro tokens value rest h
      cases h
  | succ levels ih =>
    obtain ⟨hbinary, hunary, hprimary⟩ := ih
    refine ⟨?_, ?_, ?_⟩
    · intro minimum tokens value rest h
      unfold parseBinary at h
      obtain ⟨⟨left, after⟩, hleft, h⟩ := Except.of_bind_ok h
      obtain ⟨front, n, hfront, hn, hdepth, hder⟩ := hunary _ _ _ hleft
      dsimp only at h
      obtain ⟨more, hmore, hstops, hdepth', n', hn', hwhole⟩ :=
        sound_binaryLoop hbinary after.length (Nat.le_refl _) (Nat.succ_le_succ hn) hdepth
          (.unary hder) (fun _ _ _ => .unary hder) h
      refine ⟨front ++ more, ?_, hstops, hdepth', n', hn', ?_⟩
      · rw [hfront, hmore, List.append_assoc]
      · rwa [kinds_append]
    · intro tokens value rest h
      unfold parseUnary at h
      split at h
      · rename_i hnot
        obtain ⟨offset, htokens⟩ := eq_cons_of_current hnot (by exact TokenKind.noConfusion)
        obtain ⟨⟨inner, after⟩, hinner, h⟩ := Except.of_bind_ok h
        obtain ⟨front, n, hfront, hn, -, hder⟩ := hunary _ _ _ hinner
        dsimp only at h
        split_ifs at h with hdeep
        · cases h
        · cases h
          refine ⟨⟨.not, offset⟩ :: front, n + 1, ?_, Nat.succ_le_succ hn, Nat.not_lt.mp hdeep,
            .not hder⟩
          rw [htokens, hfront]
          rfl
      · obtain ⟨front, n, hfront, hn, hdepth, hder⟩ := hprimary _ _ _ h
        exact ⟨front, n + 1, hfront, Nat.succ_le_succ hn, hdepth, hder⟩
    · intro tokens value rest h
      obtain ⟨front, n, hfront, hn, hdepth, hder⟩ := sound_primary hbinary h
      exact ⟨front, n + 1, hfront, Nat.succ_le_succ hn, hdepth, hder⟩

end Sound

end Parser

end Antiburn
