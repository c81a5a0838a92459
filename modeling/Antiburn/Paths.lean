/-
The static paths of an expression, and evaluation on two contexts.

The parser appends a fixed step to a path instead of starting an access chain
behind it (`Expression.Canonical`).  An expression depends on its context through
its static paths only: where each of them reads the same on two contexts, or is
missing on both, so does the whole expression, at the same cost
(`evaluate_congr`).
-/
import Antiburn.Access
import Antiburn.Lib.Except

namespace Antiburn

/-! ### Static paths -/

mutual

/-- Every static path in an expression; `visit_paths`. -/
def Expression.paths : Expression → List (List PathSegment)
  | .literal _ => []
  | .path segments => [segments]
  | .access base segments => base.paths ++ segmentPaths segments
  | .call _ arguments => argumentPaths arguments
  | .not value => value.paths
  | .binary _ left right => left.paths ++ right.paths

def segmentPaths : List AccessSegment → List (List PathSegment)
  | [] => []
  | .dynamic selector :: rest => selector.paths ++ segmentPaths rest
  | .property _ :: rest => segmentPaths rest
  | .index _ :: rest => segmentPaths rest
  | .projection :: rest => segmentPaths rest

def argumentPaths : List Expression → List (List PathSegment)
  | [] => []
  | argument :: rest => argument.paths ++ argumentPaths rest

end

/-! ### Canonical access chains -/

/-- A first access step that the parser leaves behind a path. -/
def AccessSegment.startsChain : AccessSegment → Bool
  | .dynamic (.literal (.string _)) => false
  | .dynamic _ => true
  | .projection => true
  | .property _ => false
  | .index _ => false

def Expression.isPath : Expression → Bool
  | .path _ => true
  | _ => false

mutual

def Expression.Canonical : Expression → Prop
  | .literal _ => True
  | .path _ => True
  | .access base segments =>
    base.Canonical ∧ CanonicalSegments segments ∧ segments ≠ [] ∧
      (base.isPath = true → segments.head?.all AccessSegment.startsChain = true)
  | .call _ arguments => CanonicalArguments arguments
  | .not value => value.Canonical
  | .binary _ left right => left.Canonical ∧ right.Canonical

def CanonicalSegments : List AccessSegment → Prop
  | [] => True
  | .dynamic selector :: rest => selector.Canonical ∧ CanonicalSegments rest
  | .property _ :: rest => CanonicalSegments rest
  | .index _ :: rest => CanonicalSegments rest
  | .projection :: rest => CanonicalSegments rest

def CanonicalArguments : List Expression → Prop
  | [] => True
  | argument :: rest => argument.Canonical ∧ CanonicalArguments rest

end

def AccessSegment.Canonical : AccessSegment → Prop
  | .dynamic selector =>
    selector.Canonical ∧ AccessSegment.startsChain (.dynamic selector) = true
  | _ => True

lemma canonicalSegments_append {segs : List AccessSegment} {seg : AccessSegment}
    (h : CanonicalSegments segs) (hseg : seg.Canonical) :
    CanonicalSegments (segs ++ [seg]) := by
  induction segs with
  | nil =>
    cases seg with
    | dynamic selector => exact ⟨hseg.1, trivial⟩
    | property | index | projection => trivial
  | cons first rest ih =>
    cases first with
    | dynamic selector => exact ⟨h.1, ih h.2⟩
    | property | index | projection => exact ih h

lemma canonicalArguments_iff {args : List Expression} :
    CanonicalArguments args ↔ ∀ argument ∈ args, argument.Canonical := by
  induction args with
  | nil => simp [CanonicalArguments]
  | cons argument rest ih => simp [CanonicalArguments, ih]

variable {expr : Expression}

namespace Parser

lemma canonical_pushAccess {seg : AccessSegment} (grouped : Bool)
    (h : expr.Canonical) (hseg : seg.Canonical) :
    (pushAccess expr seg grouped).Canonical := by
  have hsingle : CanonicalSegments ([] ++ [seg]) := canonicalSegments_append trivial hseg
  -- a chain behind a path starts with what cannot be appended to the path
  have hpath : ∀ segs, (∀ name, seg ≠ .property name) → (∀ index, seg ≠ .index index) →
      (Expression.access (.path segs) [seg]).Canonical := by
    intro segs hproperty hindex
    refine ⟨trivial, hsingle, by simp, fun _ => ?_⟩
    cases seg with
    | property name => exact absurd rfl (hproperty name)
    | index index => exact absurd rfl (hindex index)
    | projection => rfl
    | dynamic selector => exact hseg.2
  have hchain : ∀ base segs, (Expression.access base segs).Canonical →
      (Expression.access base (segs ++ [seg])).Canonical := by
    rintro base segs ⟨hbase, hsegs, hne, hhead⟩
    refine ⟨hbase, canonicalSegments_append hsegs hseg, by simp, fun hisPath => ?_⟩
    cases segs with
    | nil => exact absurd rfl hne
    | cons first rest => exact hhead hisPath
  have hother : expr.isPath = false → (Expression.access expr [seg]).Canonical := by
    intro hnot
    refine ⟨h, hsingle, by simp, fun hisPath => ?_⟩
    rw [hisPath] at hnot
    cases hnot
  cases expr with
  | path segs =>
    cases seg with
    | property | index => cases grouped <;> trivial
    | dynamic selector | projection => cases grouped <;> exact hpath segs nofun nofun
  | access base segs =>
    cases grouped with
    | true => exact hother rfl
    | false => exact hchain base segs h
  | literal | call | not | binary => cases grouped <;> exact hother rfl

lemma canonical_bracketSegment (h : expr.Canonical) :
    (bracketSegment expr).Canonical := by
  cases expr with
  | literal value =>
    cases value with
    | string => trivial
    | boolean | null => exact ⟨h, rfl⟩
    | number number =>
      unfold bracketSegment
      dsimp only
      cases number.asU64 with
      | some index => trivial
      | none => exact ⟨h, rfl⟩
  | path | access | call | not | binary => exact ⟨h, rfl⟩

/-! ### What the parser returns -/

def Returns {α : Type} (parser : Parser α) (P : α → Prop) : Prop :=
  ∀ tokens value rest, parser tokens = .ok (value, rest) → P value

def CanonicalResult (value : ParsedExpression) : Prop := value.expression.Canonical

def argumentsDepth (depth : Nat) (values : List ParsedExpression) : Nat :=
  values.foldl (fun depth value => max depth (value.depth + 1)) depth

/-- A property of results that every construction of the parser keeps. -/
structure Builds (P : ParsedExpression → Prop) : Prop where
  literal : ∀ value, P ⟨.literal value, 1⟩
  root : ∀ name, P ⟨.path [.property name], 1⟩
  call : ∀ function values, (∀ value ∈ values, P value) →
    P ⟨.call function (values.map (·.expression)), argumentsDepth 1 values⟩
  not : ∀ value, P value → P ⟨.not value.expression, value.depth + 1⟩
  binary : ∀ operator left right, P left → P right →
    P ⟨.binary operator left.expression right.expression, max left.depth right.depth + 1⟩
  named : ∀ expression depth grouped name, P ⟨expression, depth⟩ →
    P ⟨pushAccess expression (.property name) grouped, depth⟩
  projected : ∀ expression depth grouped, P ⟨expression, depth⟩ →
    P ⟨pushAccess expression .projection grouped, depth⟩
  bracketed : ∀ expression depth grouped selector, P ⟨expression, depth⟩ → P selector →
    P ⟨pushAccess expression (bracketSegment selector.expression) grouped,
      max depth (selector.depth + 1)⟩

def Checked (P : ParsedExpression → Prop) (value : ParsedExpression) : Prop :=
  P value ∧ value.depth ≤ MAX_EXPRESSION_DEPTH

section Builds

variable {P : ParsedExpression → Prop}

lemma returns_binaryLoop (hP : Builds P) {operand : Nat → Parser ParsedExpression}
    (hoperand : ∀ minimum, Returns (operand minimum) (Checked P)) (minimum rounds : Nat)
    (left : ParsedExpression) (hleft : Checked P left) :
    Returns (binaryLoop operand minimum rounds left) (Checked P) := by
  induction rounds generalizing left with
  | zero =>
    intro tokens value rest h
    cases h
    exact hleft
  | succ rounds ih =>
    intro tokens value rest h
    unfold binaryLoop at h
    split at h
    · cases h
      exact hleft
    · rename_i operator precedence hop
      split_ifs at h with hprecedence
      · cases h
        exact hleft
      · obtain ⟨⟨right, after⟩, hright, h⟩ := Except.of_bind_ok h
        dsimp only at h
        split_ifs at h with hdepth
        · cases h
        · have hright := hoperand _ _ _ _ hright
          refine ih _ ⟨?_, not_lt.mp hdepth⟩ _ _ _ h
          exact hP.binary operator left right hleft.1 hright.1

variable {nested : Nat → Parser ParsedExpression} {argument : Parser ParsedExpression}

lemma returns_argumentLoop
    (harg : Returns argument (Checked P)) (rounds depth : Nat) :
    Returns (argumentLoop argument rounds depth) fun result => ∃ values : List ParsedExpression,
      (∀ value ∈ values, P value) ∧
        result = (values.map (·.expression), argumentsDepth depth values) := by
  induction rounds generalizing depth with
  | zero =>
    intro tokens value rest h
    cases h
    exact ⟨[], by simp, rfl⟩
  | succ rounds ih =>
    intro tokens value rest h
    obtain ⟨⟨first, after⟩, hfirst, h⟩ := Except.of_bind_ok h
    have hvalue := (harg _ _ _ hfirst).1
    dsimp only at h
    split at h
    · obtain ⟨⟨⟨args, depth'⟩, after'⟩, hrest, h⟩ := Except.of_bind_ok h
      obtain ⟨values, hvalues, heq⟩ := ih _ _ _ _ hrest
      cases heq
      cases h
      exact ⟨first :: values, by simpa using ⟨hvalue, hvalues⟩, rfl⟩
    · cases h
      exact ⟨[first], by simpa using hvalue, rfl⟩

section

variable (hP : Builds P)
include hP

lemma returns_parseCall (harg : Returns argument (Checked P)) (name : String) :
    Returns (parseCall argument name) P := by
  intro tokens value rest h
  unfold parseCall at h
  split at h
  · cases h
  · rename_i function hfunction
    dsimp only at h
    split at h
    · obtain ⟨⟨⟨args, depth⟩, after⟩, hargs, h⟩ := Except.of_bind_ok h
      cases hargs
      dsimp only at h
      split at h
      · split_ifs at h
        · cases h
          exact hP.call function [] (by simp)
      · cases h
    · obtain ⟨⟨⟨args, depth⟩, after⟩, hargs, h⟩ := Except.of_bind_ok h
      obtain ⟨values, hvalues, heq⟩ := returns_argumentLoop harg _ _ _ _ _ hargs
      cases heq
      dsimp only at h
      split at h
      · split_ifs at h
        · cases h
          exact hP.call function values hvalues
      · cases h

lemma returns_accessLoop {selector : Parser ParsedExpression}
    (hselr : Returns selector (Checked P)) (rounds : Nat) (expr : Expression)
    (grouped : Bool) (depth : Nat) (hexpr : P ⟨expr, depth⟩) :
    Returns (accessLoop selector rounds expr grouped depth) P := by
  induction rounds generalizing expr grouped depth with
  | zero =>
    intro tokens value rest h
    cases h
    exact hexpr
  | succ rounds ih =>
    intro tokens value rest h
    unfold accessLoop at h
    split at h
    · split at h
      · exact ih _ _ _ (hP.named _ _ _ _ hexpr) _ _ _ h
      · exact ih _ _ _ (hP.projected _ _ _ hexpr) _ _ _ h
      · cases h
    · obtain ⟨⟨inner, after⟩, hinner, h⟩ := Except.of_bind_ok h
      dsimp only at h
      split at h
      · have hseg := (hselr _ _ _ hinner).1
        exact ih _ _ _ (hP.bracketed _ _ _ _ hexpr hseg) _ _ _ h
      · cases h
    · cases h
    · cases h
      exact hexpr

lemma returns_primaryHead (hnested : ∀ minimum, Returns (nested minimum) (Checked P)) :
    Returns (primaryHead nested) P := by
  intro tokens value rest h
  unfold primaryHead at h
  dsimp only at h
  split at h
  · cases h
    exact hP.literal _
  · cases h
    exact hP.literal _
  · cases h
    exact hP.literal _
  · split at h
    · exact returns_parseCall hP (hnested 0) _ _ _ _ h
    · cases h
      exact hP.root _
  · cases h
    exact hP.literal _
  · cases h
    exact hP.literal _
  · obtain ⟨⟨inner, after⟩, hinner, h⟩ := Except.of_bind_ok h
    dsimp only at h
    split at h
    · cases h
      exact (hnested _ _ _ _ hinner).1
    · cases h
  · cases h
  · cases h

lemma returns_primary (hnested : ∀ minimum, Returns (nested minimum) (Checked P)) :
    Returns (primary nested) (Checked P) := by
  intro tokens value rest h
  unfold primary at h
  obtain ⟨⟨head, after⟩, hhead, h⟩ := Except.of_bind_ok h
  obtain ⟨⟨inner, after'⟩, hinner, h⟩ := Except.of_bind_ok h
  have hvalue := returns_accessLoop hP (hnested 0) _ _ _ _
    (returns_primaryHead hP hnested _ _ _ hhead) _ _ _ hinner
  dsimp only at h
  split_ifs at h with hdepth
  · cases h
  · cases h
    exact ⟨hvalue, not_lt.mp hdepth⟩

/-- **What every construction keeps holds of every result.** -/
lemma returns_parse (levels : Nat) :
    (∀ minimum, Returns (parseBinary levels minimum) (Checked P)) ∧
      Returns (parseUnary levels) (Checked P) ∧ Returns (parsePrimary levels) (Checked P) := by
  induction levels with
  | zero =>
    refine ⟨?_, ?_, ?_⟩
    · intro minimum tokens value rest h
      cases h
    · intro tokens value rest h
      cases h
    · intro tokens value rest h
      cases h
  | succ levels ih =>
    obtain ⟨hbinary, hunary, hprimary⟩ := ih
    refine ⟨?_, ?_, ?_⟩
    · intro minimum tokens value rest h
      unfold parseBinary at h
      obtain ⟨⟨left, after⟩, hleft, h⟩ := Except.of_bind_ok h
      exact returns_binaryLoop hP hbinary _ _ _ (hunary _ _ _ hleft) _ _ _ h
    · intro tokens value rest h
      unfold parseUnary at h
      split at h
      · obtain ⟨⟨inner, after⟩, hinner, h⟩ := Except.of_bind_ok h
        dsimp only at h
        split_ifs at h with hdepth
        · cases h
        · have hvalue := hP.not inner (hunary _ _ _ hinner).1
          cases h
          exact ⟨hvalue, not_lt.mp hdepth⟩
      · exact hprimary _ _ _ h
    · intro tokens value rest h
      exact returns_primary hP hbinary _ _ _ h

end

end Builds

lemma canonical_builds : Builds CanonicalResult where
  literal _ := trivial
  root _ := trivial
  call _ values h := by
    refine canonicalArguments_iff.mpr fun argument harg => ?_
    obtain ⟨value, hvalue, rfl⟩ := List.mem_map.mp harg
    exact h value hvalue
  not _ h := h
  binary _ _ _ hleft hright := ⟨hleft, hright⟩
  named _ _ grouped _ h := canonical_pushAccess grouped h trivial
  projected _ _ grouped h := canonical_pushAccess grouped h trivial
  bracketed _ _ grouped _ h hselr :=
    canonical_pushAccess grouped h (canonical_bracketSegment hselr)

end Parser

lemma checked_of_parseExpression [Platform] {P : ParsedExpression → Prop}
    (hP : Parser.Builds P) {source : String}
    (h : parseExpression source = .ok expr) :
    ∃ depth ≤ MAX_EXPRESSION_DEPTH, P ⟨expr, depth⟩ := by
  unfold parseExpression at h
  obtain ⟨tokens, hlex, h⟩ := Except.of_bind_ok h
  obtain ⟨⟨value, rest⟩, hparse, h⟩ := Except.of_bind_ok h
  have hvalue := (Parser.returns_parse hP _).1 _ _ _ _ hparse
  dsimp only at h
  split at h
  · cases h
    exact ⟨value.depth, hvalue.2, hvalue.1⟩
  · cases h

/-- **Parsed expressions are canonical.** -/
lemma canonical_of_parseExpression [Platform] {source : String}
    (h : parseExpression source = .ok expr) : expr.Canonical := by
  obtain ⟨depth, -, hcanon⟩ := checked_of_parseExpression Parser.canonical_builds h
  exact hcanon

/-! ### Two runs at the same cost -/

/-- From equal states, the two computations end in equal states with related
outcomes. -/
def Lockstep {α β : Type} (R : α → β → Prop) (x : EvalM α) (y : EvalM β) : Prop :=
  Ledger.Coupled Eq (fun _ => False) R x y

namespace Lockstep

variable {α β γ δ : Type} {R : α → β → Prop} {S : γ → δ → Prop}

lemma refl (x : EvalM α) : Lockstep Eq x x := by
  rintro s _ rfl
  refine .inr (.inr ⟨rfl, ?_⟩)
  cases (x.run s).1 <;> rfl

lemma pure {a : α} {b : β} (h : R a b) : Lockstep R (Pure.pure a) (Pure.pure b) :=
  Ledger.Coupled.pure h

lemma fail (error : EvaluationError) :
    Lockstep R (Ledger.fail error : EvalM α) (Ledger.fail error : EvalM β) :=
  Ledger.Coupled.fail error

lemma bind {x : EvalM α} {y : EvalM β} {f : α → EvalM γ} {g : β → EvalM δ}
    (h : Lockstep R x y) (hfg : ∀ a b, R a b → Lockstep S (f a) (g b)) :
    Lockstep S (x >>= f) (y >>= g) :=
  Ledger.Coupled.bind (fun _ _ _ h => h) h hfg

lemma bind_same (x : EvalM α) {f : α → EvalM γ} {g : α → EvalM δ}
    (hfg : ∀ a, Lockstep S (f a) (g a)) : Lockstep S (x >>= f) (x >>= g) :=
  (refl x).bind fun a _ h => h ▸ hfg a

lemma mono {R' : α → β → Prop} {x : EvalM α} {y : EvalM β} (h : Lockstep R x y)
    (hR : ∀ a b, R a b → R' a b) : Lockstep R' x y :=
  Ledger.Coupled.mono h hR

lemma outcomes {x : EvalM α} {y : EvalM β} (h : Lockstep R x y) (s : EvalState) :
    Ledger.OutcomesRelated R Eq (x.run s).1 (y.run s).1 := by
  rcases h s s rfl with hx | hy | ⟨-, hout⟩
  · exact hx.elim
  · exact hy.elim
  · exact hout

end Lockstep

def SameOrMissing (v w : RuntimeValue) : Prop := v = w ∨ (v.value = none ∧ w.value = none)

lemma SameOrMissing.refl (v : RuntimeValue) : SameOrMissing v v := .inl rfl

lemma sameOrMissing_unavailable (m m' : ValueMetadata) :
    SameOrMissing (.unavailable m) (.unavailable m') := .inr ⟨rfl, rfl⟩

section Congruence

open EvalM RuntimeValue

variable [Platform]

omit [Platform] in
lemma projectItems_congr {f g : RuntimeValue → EvalM RuntimeValue}
    (hfg : ∀ value, Lockstep SameOrMissing (f value) (g value)) (depth : Nat)
    (source : RuntimeValue) (deps : EvaluationTrace)
    (entries : List (PathSegment × Json)) (output : List Json) (metadata : List ValueMetadata) :
    Lockstep SameOrMissing (projectItems f depth source deps entries output metadata)
      (projectItems g depth source deps entries output metadata) := by
  induction entries generalizing output metadata with
  | nil => exact (Lockstep.refl _).mono fun _ _ h => .inl h
  | cons entry rest ih =>
    obtain ⟨seg, item⟩ := entry
    refine (hfg _).bind ?_
    rintro v w (rfl | ⟨hv, hw⟩)
    · cases v.value with
      | none => exact .pure (.refl _)
      | some json =>
        refine Lockstep.bind_same _ fun finished => ?_
        cases finished.value with
        | none => exact .pure (.refl _)
        | some json => exact ih _ _
    · simp only [hv, hw]
      exact .pure (sameOrMissing_unavailable _ _)

omit [Platform] in
lemma project_congr {f g : RuntimeValue → EvalM RuntimeValue}
    (hfg : ∀ value, Lockstep SameOrMissing (f value) (g value)) (depth : Nat)
    (value : RuntimeValue) :
    Lockstep SameOrMissing (project f depth value) (project g depth value) := by
  refine Lockstep.bind_same _ fun _ => ?_
  dsimp only
  cases value.value with
  | none => exact .pure (.refl _)
  | some json =>
    dsimp only
    cases projectionEntries json with
    | none => exact .pure (.refl _)
    | some entries =>
      refine Lockstep.bind_same _ fun _ => ?_
      refine Lockstep.bind_same _ fun _ => ?_
      split_ifs
      · refine Lockstep.bind_same _ fun _ => ?_
        exact projectItems_congr hfg _ _ _ _ _ _
      · exact projectItems_congr hfg _ _ _ _ _ _

variable {ctx context' : Json} {bindings : EvaluationBindings}

def SamePath (ctx context' : Json) (bindings : EvaluationBindings)
    (path : List PathSegment) : Prop :=
  ∀ depth, Lockstep SameOrMissing (evaluatePath ctx bindings path depth)
    (evaluatePath context' bindings path depth)

mutual

/-- **An expression depends on its context through its static paths only.** -/
lemma evaluate_congr (expr : Expression)
    (h : ∀ path ∈ expr.paths, SamePath ctx context' bindings path) (depth : Nat) :
    Lockstep SameOrMissing (evaluate ctx bindings expr depth)
      (evaluate context' bindings expr depth) := by
  cases expr with
  | literal literal =>
    simp only [evaluate]
    exact (Lockstep.refl _).mono fun _ _ h => .inl h
  | path path =>
    simp only [evaluate]
    refine Lockstep.bind_same _ fun _ => ?_
    exact h path (by simp [Expression.paths]) depth
  | access base segs =>
    simp only [evaluate]
    refine Lockstep.bind_same _ fun _ => ?_
    refine (evaluate_congr base (fun path hpath => h path ?_) _).bind fun v w hvw => ?_
    · rw [Expression.paths]
      exact List.mem_append_left _ hpath
    · refine access_congr segs (fun path hpath => h path ?_) _ _ v w hvw
      rw [Expression.paths]
      exact List.mem_append_right _ hpath
  | call function args =>
    simp only [evaluate]
    refine Lockstep.bind_same _ fun _ => ?_
    split_ifs
    · exact .fail _
    · have hargs := evaluateArguments_congr args
        (fun path hpath => h path (by rw [Expression.paths]; exact hpath)) depth {} []
      refine hargs.bind ?_
      rintro ⟨trace, values⟩ ⟨trace', values'⟩ (heq | ⟨hnone, hnone'⟩)
      · cases heq
        cases values with
        | none => exact .pure (.refl _)
        | some values => exact (Lockstep.refl _).mono fun _ _ h => .inl h
      · cases hnone
        cases hnone'
        exact .pure (sameOrMissing_unavailable _ _)
  | not value =>
    simp only [evaluate]
    refine Lockstep.bind_same _ fun _ => ?_
    refine (evaluate_congr value (fun path hpath => h path (by rw [Expression.paths]; exact hpath))
      _).bind ?_
    rintro v w (rfl | ⟨hv, hw⟩)
    · exact (Lockstep.refl _).mono fun _ _ h => .inl h
    · simp only [hv, hw]
      exact .pure (sameOrMissing_unavailable _ _)
  | binary operator left right =>
    simp only [evaluate]
    refine Lockstep.bind_same _ fun _ => ?_
    refine (evaluate_congr left (fun path hpath => h path ?_) _).bind ?_
    · rw [Expression.paths]
      exact List.mem_append_left _ hpath
    rintro v w (rfl | ⟨hv, hw⟩)
    · cases v.value with
      | none => exact .pure (.refl _)
      | some json =>
        dsimp only
        split_ifs
        · exact .pure (.refl _)
        · refine (evaluate_congr right (fun path hpath => h path ?_) _).bind ?_
          · rw [Expression.paths]
            exact List.mem_append_right _ hpath
          rintro r r' (rfl | ⟨hr, hr'⟩)
          · exact (Lockstep.refl _).mono fun _ _ h => .inl h
          · -- a missing right side leaves no value under any operator
            cases operator with
            | and | or => exact .pure (.inr ⟨hr, hr'⟩)
            | less | lessOrEqual | greater | greaterOrEqual | equal | notEqual =>
              unfold compareValues
              simp only [hr, hr']
              cases v.value <;> exact .pure (sameOrMissing_unavailable _ _)
    · simp only [hv, hw]
      exact .pure (.inr ⟨hv, hw⟩)

lemma access_congr (segs : List AccessSegment)
    (h : ∀ path ∈ segmentPaths segs, SamePath ctx context' bindings path)
    (depth pos : Nat) (v w : RuntimeValue) (hvw : SameOrMissing v w) :
    Lockstep SameOrMissing (access ctx bindings segs depth pos v)
      (access context' bindings segs depth pos w) := by
  cases segs with
  | nil =>
    simp only [access]
    exact .pure hvw
  | cons seg rest =>
    rcases hvw with rfl | ⟨hv, hw⟩
    · cases seg with
      | property name | index index =>
        simp only [access]
        refine Lockstep.bind_same _ fun _ => ?_
        split_ifs
        · exact .pure (.refl _)
        · exact access_congr rest (fun path hpath => h path (by rw [segmentPaths]; exact hpath))
            _ _ _ _ (.refl _)
      | dynamic selector =>
        simp only [access]
        refine Lockstep.bind_same _ fun _ => ?_
        split_ifs
        · exact .pure (.refl _)
        · refine (evaluate_congr selector (fun path hpath => h path ?_) _).bind ?_
          · rw [segmentPaths]
            exact List.mem_append_left _ hpath
          rintro key key' (rfl | ⟨hkey, hkey'⟩)
          · cases key.value with
            | none => exact .pure (.refl _)
            | some json =>
              refine Lockstep.bind_same _ fun seg => ?_
              cases seg with
              | none => exact .pure (.refl _)
              | some seg =>
                refine access_congr rest (fun path hpath => h path ?_) _ _ _ _ (.refl _)
                rw [segmentPaths]
                exact List.mem_append_right _ hpath
          · simp only [hkey, hkey']
            exact .pure (sameOrMissing_unavailable _ _)
      | projection =>
        simp only [access]
        refine Lockstep.bind_same _ fun _ => ?_
        split_ifs
        · exact .pure (.refl _)
        · exact project_congr (fun value => access_congr rest
            (fun path hpath => h path (by rw [segmentPaths]; exact hpath)) _ _ _ _ (.refl _)) _ _
    · -- every step stops at a missing value
      cases seg with
      | property | index | dynamic | projection =>
        simp only [access, hv, hw, Option.isNone_none, if_true]
        exact Lockstep.bind_same _ fun _ => .pure (.inr ⟨hv, hw⟩)

lemma evaluateArguments_congr (args : List Expression)
    (h : ∀ path ∈ argumentPaths args, SamePath ctx context' bindings path)
    (depth : Nat) (trace : EvaluationTrace) (values : List RuntimeValue) :
    Lockstep (fun r r' => r = r' ∨ (r.2 = none ∧ r'.2 = none))
      (evaluateArguments ctx bindings args depth trace values)
      (evaluateArguments context' bindings args depth trace values) := by
  cases args with
  | nil =>
    simp only [evaluateArguments]
    exact .pure (.inl rfl)
  | cons argument rest =>
    simp only [evaluateArguments]
    refine (evaluate_congr argument (fun path hpath => h path ?_) _).bind ?_
    · rw [argumentPaths]
      exact List.mem_append_left _ hpath
    rintro v w (rfl | ⟨hv, hw⟩)
    · split_ifs
      · exact .pure (.inl rfl)
      · refine evaluateArguments_congr rest (fun path hpath => h path ?_) _ _ _
        rw [argumentPaths]
        exact List.mem_append_right _ hpath
    · simp only [hv, hw, Option.isNone_none, if_true]
      exact .pure (.inr ⟨rfl, rfl⟩)

end

end Congruence

end Antiburn
