/-
The access checker is sound for the evaluator.

The induction follows the syntax as both functions do.  For an expression it
carries two facts: an available value conforms to the resolved shape, and every
step that the evaluation applies fits the value it meets.  A computed selector
may ask an array for its length, where the compiler expects an item; so the
first fact is claimed for values that come through no computed selector, or for
evaluations in which no such count is taken.
-/
import Antiburn.AppliedSteps

namespace Antiburn

open Ledger EvalM RuntimeValue

/-! ### Scalar results -/

def RuntimeValue.IsScalar (value : RuntimeValue) : Prop :=
  ∀ json, value.value = some json → json.isContainer = false

lemma isScalar_scalar {json : Json} {trace : EvaluationTrace} (h : json.isContainer = false) :
    (RuntimeValue.scalar json trace).IsScalar := by
  rintro other ⟨⟩
  exact h

lemma isScalar_unavailable (metadata : ValueMetadata) :
    (RuntimeValue.unavailable metadata).IsScalar := by
  rintro json ⟨⟩

section Functions

variable [Platform]

lemma containsItem_isScalar (items needle : RuntimeValue) (right : Json) (depth : Nat)
    (rest : List (Json × Nat)) (trace : EvaluationTrace) :
    (containsItem items needle right depth rest trace).Ensures IsScalar := by
  induction rest generalizing trace with
  | nil => exact Ensures.pure (isScalar_scalar rfl)
  | cons entry rest ih =>
    refine Ensures.of_last fun _ => Ensures.of_last fun _ => Ensures.of_last fun found => ?_
    split_ifs
    · exact Ensures.pure (isScalar_scalar rfl)
    · exact ih _

lemma compareValues_isScalar (operator : BinaryOperator) (left right : RuntimeValue) :
    (compareValues operator left right).Ensures IsScalar := by
  unfold compareValues
  dsimp only
  split
  · split
    all_goals exact Ensures.of_last fun _ => Ensures.pure (isScalar_scalar rfl)
  · exact Ensures.pure (isScalar_unavailable _)

lemma applyFunction_isScalar {function : ExpressionFunction} (hfun : function ≠ .fromJSON)
    (values : List RuntimeValue) (trace : EvaluationTrace) (depth : Nat) :
    (applyFunction function values trace depth).Ensures IsScalar := by
  have text : ∀ {text : String} {owned metadata},
      (⟨some (.string text), owned, metadata⟩ : RuntimeValue).IsScalar := by
    rintro text owned metadata json ⟨⟩
    rfl
  cases function with
  | fromJSON => exact absurd rfl hfun
  | strictEquals =>
    dsimp only [applyFunction]
    split_ifs
    · exact Ensures.fail
    · exact Ensures.pure (isScalar_scalar rfl)
  | contains =>
    dsimp only [applyFunction]
    split
    · exact containsItem_isScalar _ _ _ _ _ _
    · exact Ensures.of_last fun _ => Ensures.pure (isScalar_scalar rfl)
  | startsWith | endsWith =>
    exact Ensures.of_last fun _ => Ensures.pure (isScalar_scalar rfl)
  | join =>
    -- a string is returned as it is
    have unchanged : ∀ {first : RuntimeValue} {left : String} {metadata},
        first.value.getD .null = .string left →
          ({ first with metadata } : RuntimeValue).IsScalar := by
      rintro first left metadata hleft json hjson
      dsimp only at hjson
      rw [hjson, Option.getD_some] at hleft
      rw [hleft]
      rfl
    dsimp only [applyFunction]
    split
    · split
      · next hleft => exact Ensures.pure (unchanged hleft)
      · refine Ensures.of_last fun _ => Ensures.of_last fun _ => Ensures.of_last fun _ => ?_
        exact Ensures.pure text
      · exact Ensures.fail
    · refine Ensures.of_last fun _ => ?_
      split
      · next hleft => exact Ensures.pure (unchanged hleft)
      · exact Ensures.of_last fun _ => Ensures.of_last fun _ => Ensures.pure text
      · exact Ensures.fail
  | format =>
    refine Ensures.of_last fun _ => Ensures.of_last fun _ => Ensures.of_last fun _ => ?_
    exact Ensures.pure text
  | toJSON => exact Ensures.of_last fun _ => Ensures.pure text

end Functions

/-! ### Single steps -/

namespace Validator

variable {v : Validator} {phase : ExpressionContext}

def Holds (v : Validator) (shape : ValueShape) (value : RuntimeValue) : Prop :=
  ∀ json, value.value = some json → v.Conforms shape json

lemma select_value (value : RuntimeValue) (seg : PathSegment) :
    (select value seg).value = value.value.bind (childOf seg) := by
  cases hvalue : value.value with
  | none => simp [select, hvalue, unavailable]
  | some json =>
    cases seg with
    | property key =>
      cases json with
      | array items =>
        by_cases hkey : key = "length"
        · subst hkey
          simp [select, hvalue, childOf, propertyOf, RuntimeValue.scalar]
        · simp [select, hvalue, childOf, propertyOf, hkey]
      | object entries | null | bool _ | number _ | string _ => simp [select, hvalue, childOf, propertyOf]
    | index index => cases json <;> simp [select, hvalue, childOf, itemOf]

lemma exists_of_select {value : RuntimeValue} {seg : PathSegment} {child : Json}
    (h : (select value seg).value = some child) :
    ∃ json, value.value = some json ∧ childOf seg json = some child := by
  rw [select_value] at h
  exact Option.bind_eq_some_iff.mp h

lemma Holds.property {key : String} {shape next : ValueShape} {value : RuntimeValue}
    (h : v.Holds shape value) (hnext : v.propertyShape key shape = .ok next) :
    v.Holds next (select value (.property key)) := by
  intro child hchild
  obtain ⟨json, hjson, hchild⟩ := exists_of_select hchild
  exact (h json hjson).property hnext hchild

lemma Holds.index {index : Nat} {shape next : ValueShape} {value : RuntimeValue}
    (h : v.Holds shape value) (hnext : (indexRule (some index)).shape shape = .ok next) :
    v.Holds next (select value (.index index)) := by
  intro child hchild
  obtain ⟨json, hjson, hchild⟩ := exists_of_select hchild
  exact (h json hjson).child (indexRule_keeps _ _) hnext hchild

section Brackets

variable [Platform]

lemma numericIndexRule_keeps (number : Number) (index : Nat) :
    IndexRule.Keeps v (numericIndexRule number) fun json child =>
      itemOf index json = some child where
  array h := by
    cases h
    rfl
  fixedArray h := by
    dsimp only [numericIndexRule] at h
    split_ifs at h with hbound
    cases h
    rfl
  items h := List.mem_of_getElem? h
  record h := by cases h
  scalar h := by cases h

variable {depth : Nat} {seg : PathSegment}

omit [Platform] in
lemma returns_dynamicSegment {json : Json}
    (h : (dynamicSegment json).Returns (some seg)) :
    (∃ key, json = .string key ∧ seg = .property key) ∨
      ∃ number index, json = .number number ∧ number.integralIndex = some index ∧
        seg = .index index := by
  cases json with
  | string key =>
    obtain ⟨_, -, h⟩ := Returns.of_bind h
    exact .inl ⟨key, rfl, Option.some.inj h.of_pure⟩
  | number number =>
    have hseg := h.of_pure
    cases hindex : number.integralIndex with
    | none => simp [hindex] at hseg
    | some index =>
      refine .inr ⟨number, index, rfl, hindex, ?_⟩
      simpa [hindex] using hseg
  | null | bool _ | array _ | object _ => cases h.of_pure

variable {computed : Bool} {deps : EvaluationTrace} {context : Json}
  {accessItem : RuntimeValue → EvalM RuntimeValue}

lemma evaluate_literal {bindings : EvaluationBindings}
    {literal : ExpressionLiteral} {value : RuntimeValue}
    (h : (evaluate context bindings (.literal literal) depth).Returns value) :
    value.value = some (literalValue literal) := by
  rw [evaluate] at h
  obtain ⟨_, -, h⟩ := h.of_bind
  cases literal with
  | string text =>
    obtain ⟨_, -, h⟩ := Returns.of_bind h
    rw [h.of_pure]
    rfl
  | number _ | boolean _ | null =>
    rw [Returns.of_pure h]
    rfl

lemma selector_cases (selector : Expression) :
    (∃ key, selector = .literal (.string key)) ∨ (∃ number, selector = .literal (.number number)) ∨
      ((AccessSegment.dynamic selector).isComputed = true ∧
        (∀ key, selectorStep key selector = .computed key) ∧
          ∀ shape, v.selectorShape selector shape = dynamicRule.shape shape) := by
  cases selector with
  | literal literal =>
    cases literal with
    | string key => exact .inl ⟨key, rfl⟩
    | number number => exact .inr (.inl ⟨number, rfl⟩)
    | boolean _ | null => exact .inr (.inr ⟨rfl, fun _ => rfl, fun _ => rfl⟩)
  | _ => exact .inr (.inr ⟨rfl, fun _ => rfl, fun _ => rfl⟩)

section

variable {selector : Expression}

lemma Holds.bracket {shape next : ValueShape} {value key : RuntimeValue}
    {keyJson : Json} {bindings : EvaluationBindings}
    (h : v.Holds shape value)
    (hkey : (evaluate context bindings selector depth).Returns key)
    (hkeyJson : key.value = some keyJson)
    (hseg : (dynamicSegment keyJson).Returns (some seg))
    (hnext : v.selectorShape selector shape = .ok next)
    (hcount : ∀ json, value.value = some json → ∀ computed,
      ¬ (⟨selectorStep keyJson selector, shape, json, computed⟩ : AppliedStep).Miscounts v) :
    v.Holds next (select value seg) := by
  rcases selector_cases (v := v) selector with ⟨text, rfl⟩ | ⟨number, rfl⟩ | ⟨-, hstep, hshape⟩
  · -- a literal text is its own key
    rw [evaluate_literal hkey] at hkeyJson
    cases hkeyJson
    rcases returns_dynamicSegment hseg with ⟨other, heq, rfl⟩ | ⟨_, _, heq, -⟩
    · cases heq
      exact h.property hnext
    · cases heq
  · -- a literal number is its own index
    rw [evaluate_literal hkey] at hkeyJson
    cases hkeyJson
    rcases returns_dynamicSegment hseg with ⟨_, heq, -⟩ | ⟨_, index, -, -, rfl⟩
    · cases heq
    · intro child hchild
      obtain ⟨json, hjson, hchild⟩ := exists_of_select hchild
      exact (h json hjson).child (numericIndexRule_keeps number index) hnext hchild
  · rw [hshape] at hnext
    intro child hchild
    obtain ⟨json, hjson, hchild⟩ := exists_of_select hchild
    by_cases hlen : seg = .property "length" ∧ ∃ items, json = .array items
    · -- the length stands where an item is declared
      obtain ⟨rfl, items, rfl⟩ := hlen
      rcases returns_dynamicSegment hseg with ⟨text, rfl, heq⟩ | ⟨_, _, _, _, heq⟩
      · cases heq
        by_contra hno
        refine hcount (.array items) hjson true ⟨child, next, ?_, hnext, hno⟩
        rw [hstep]
        exact hchild
      · cases heq
    · exact (h json hjson).child (dynamicRule_keeps seg) hnext
        ⟨fun hseg items hitems => hlen ⟨hseg, items, hitems⟩, hchild⟩

lemma literal_cases (h : (AccessSegment.dynamic selector).isComputed = false) :
    (∃ key, selector = .literal (.string key)) ∨
      ∃ number, selector = .literal (.number number) := by
  rcases selector_cases (v := ⟨false, [], [], none⟩) selector with hkey | hnumber | ⟨htrue, -⟩
  · exact .inl hkey
  · exact .inr hnumber
  · rw [h] at htrue
    cases htrue

lemma not_miscounts_selectorStep {key json : Json} {shape : ValueShape}
    (h : (AccessSegment.dynamic selector).isComputed = false) :
    ¬ (⟨selectorStep key selector, shape, json, computed⟩ : AppliedStep).Miscounts v := by
  rintro ⟨count, next, hcount, -⟩
  rcases literal_cases h with ⟨text, rfl⟩ | ⟨number, rfl⟩
  · cases hcount
  · cases hcount

lemma Conforms.fits_selectorStep {key json : Json}
    {shape next : ValueShape} (hvalue : v.Conforms shape json)
    (h : (AccessSegment.dynamic selector).isComputed = false)
    (hnext : v.selectorShape selector shape = .ok next) (hopen : shape.holdsOpen = false) :
    (⟨selectorStep key selector, shape, json, computed⟩ : AppliedStep).fits = true := by
  rcases literal_cases h with ⟨text, rfl⟩ | ⟨number, rfl⟩
  · exact hvalue.hasProperties hnext hopen
  · rcases hvalue.kind (fun _ h => by cases h) hnext hopen with ⟨_, rfl⟩ | ⟨_, _, _, -, hrecord⟩
    · rfl
    · cases hrecord

end

/-! ### Logical operators -/

/-- What the number reader is relied on for: `as_f64` of a number it returns is
zero exactly when the number is. -/
def ReadsNumbers : Prop :=
  ∀ text number value, Platform.parseNumber text = some number → asF64 number = some value →
    decide (value ≠ Platform.f64OfDecimal "0") = number.isNonzero

lemma isTruthy_of_knownTruth (hnums : ReadsNumbers) {left : Expression} {truth : Bool}
    (hread : ∀ number ∈ left.numbers, ∃ text, Platform.parseNumber text = some number)
    (htruth : knownTruth left = some truth) {context json : Json} {bindings : EvaluationBindings}
    {depth : Nat} {value : RuntimeValue}
    (hvalue : (evaluate context bindings left depth).Returns value)
    (hjson : value.value = some json) : isTruthy json = truth := by
  cases left with
  | literal literal =>
    rw [evaluate_literal hvalue] at hjson
    cases hjson
    cases literal with
    | null | boolean _ | string _ =>
      cases htruth
      rfl
    | number number =>
      obtain ⟨number', hf64, rfl⟩ := Option.map_eq_some_iff.mp htruth
      obtain ⟨text, htext⟩ := hread number (by simp [Expression.numbers])
      exact (hnums text number number' htext hf64).symm
  | _ => cases htruth

omit [Platform] in
lemma Conforms.binary {operator : BinaryOperator} (hlogic : operator = .and ∨ operator = .or)
    {truth : Option Bool} {left right : ValueShape} {json : Json} (hleft : v.Conforms left json)
    (htruth : ∀ known, truth = some known → isTruthy json = known) :
    (shortCircuits operator json = true → v.Conforms (binaryShape operator truth left right) json) ∧
      ∀ other, shortCircuits operator json = false → v.Conforms right other →
        v.Conforms (binaryShape operator truth left right) other := by
  cases truth with
  | some known =>
    have hknown := htruth known rfl
    rcases hlogic with rfl | rfl <;> cases known <;>
      simp_all [binaryShape, shortCircuits]
  | none =>
    by_cases halways : alwaysTrue left = true
    · have htrue := hleft.truthy halways
      rcases hlogic with rfl | rfl <;> simp_all [binaryShape, shortCircuits]
    · by_cases hsame : (left != right) = true
      · have hshape : binaryShape operator none left right = .alternatives [left, right] := by
          rcases hlogic with rfl | rfl <;> simp [binaryShape, halways, hsame]
        rw [hshape]
        exact ⟨fun _ => .alternatives List.mem_cons_self hleft, fun other _ hother =>
          .alternatives (List.mem_cons_of_mem _ List.mem_cons_self) hother⟩
      · have hshape : binaryShape operator none left right = left := by
          rcases hlogic with rfl | rfl <;> simp [binaryShape, halways, hsame]
        have hbeq : (left == right) = true := by simpa [bne] using hsame
        have heq : left = right := ValueShape.eq_of_beq left right hbeq
        rw [hshape]
        exact ⟨fun _ => hleft, fun other _ hother => heq ▸ hother⟩

/-! ### Projections -/

omit [Platform] in
lemma returns_finish {value : RuntimeValue} {finished : EvaluatedValue}
    (h : (value.finish depth).Returns finished) : finished.value = value.value := by
  unfold RuntimeValue.finish at h
  split at h
  · next json hvalue howned =>
    obtain ⟨copy, hcopy, h⟩ := h.of_bind
    obtain ⟨_, -, hcopy⟩ := hcopy.of_bind
    rw [h.of_pure, hvalue, hcopy.of_pure]
  · next json owned hvalue =>
    rw [h.of_pure]

omit [Platform] in
lemma returns_ofOwned {json : Json} {value : RuntimeValue}
    (h : (ofOwned json deps).Returns value) : value.value = some json := by
  unfold ofOwned at h
  split at h
  · obtain ⟨_, -, h⟩ := Returns.of_bind h
    rw [h.of_pure]
  · rw [Returns.of_pure h]
    rfl

omit [Platform] in
lemma returns_of_available {check : EvalM Unit} {next : EvalM RuntimeValue}
    {value result : RuntimeValue} {json : Json}
    (h : (do check; if value.value.isNone then return value else next).Returns result)
    (hjson : result.value = some json ∨ value.value = some json) : next.Returns result := by
  obtain ⟨_, -, h⟩ := h.of_bind
  split at h
  · next hnone =>
    rw [h.of_pure, or_self] at hjson
    rw [hjson] at hnone
    cases hnone
  · exact h

omit [Platform] in
lemma returns_project
    {value result : RuntimeValue} (h : (project accessItem depth value).Returns result) {json : Json}
    (hjson : result.value = some json) :
    ∃ source entries deps, value.value = some source ∧
      projectionEntries source = some entries ∧
        (projectItems accessItem depth value deps entries [] []).Returns result := by
  unfold project at h
  obtain ⟨_, -, h⟩ := h.of_bind
  dsimp only at h
  split at h
  · rw [h.of_pure] at hjson
    cases hjson
  · next source hsource =>
    split at h
    · rw [h.of_pure] at hjson
      cases hjson
    · next entries hents =>
      obtain ⟨_, -, h⟩ := h.of_bind
      obtain ⟨_, -, h⟩ := h.of_bind
      split at h
      · obtain ⟨_, -, h⟩ := h.of_bind
        exact ⟨source, entries, _, hsource, hents, h⟩
      · exact ⟨source, entries, _, hsource, hents, h⟩

omit [Platform] in
lemma returns_projectItems_cons
    {source result : RuntimeValue}
    {item json : Json} {entries : List (PathSegment × Json)} {output : List Json}
    {metadata : List ValueMetadata}
    (h : (projectItems accessItem depth source deps ((seg, item) :: entries) output
      metadata).Returns result) (hjson : result.value = some json) :
    ∃ selected chosen metadata',
      (accessItem ⟨some item, source.owned, source.metadata.child seg⟩).Returns selected ∧
        selected.value = some chosen ∧
          (projectItems accessItem depth source deps entries (output ++ [chosen])
            metadata').Returns result := by
  rw [projectItems] at h
  obtain ⟨selected, hsel, h⟩ := h.of_bind
  split at h
  · rw [h.of_pure] at hjson
    cases hjson
  · next chosen hchosen =>
    obtain ⟨finished, hfin, h⟩ := h.of_bind
    have hvalue := returns_finish hfin
    split at h
    · next copy hcopy =>
      rw [hcopy, hchosen] at hvalue
      cases hvalue
      exact ⟨selected, chosen, _, hsel, hchosen, h⟩
    · rw [h.of_pure] at hjson
      cases hjson

/-! ### Paths -/

section Sound

variable {context : Json} {bindings : EvaluationBindings} {N : Prop}

omit [Platform] in
lemma holds_pathRoot (hctx : v.ConformsContext context) (hbinds : v.Binds phase bindings)
    {root : String} {shape : ValueShape} (h : v.rootShape root phase = .ok shape) :
    v.Holds shape (pathRoot context bindings root) := by
  have hbound := hbinds root
  have halias : (if phase = .decisionInput then v.aliases.lookup root else none) =
      (v.phaseAliases phase).lookup root := by
    unfold phaseAliases
    split_ifs <;> rfl
  unfold rootShape at h
  rw [halias] at h
  unfold pathRoot
  cases hlookup : (v.phaseAliases phase).lookup root with
  | some bound =>
    rw [hlookup] at h hbound
    cases h
    cases hbind : bindings.lookup root with
    | some binding =>
      rw [hbind] at hbound
      exact hbound
    | none =>
      rw [hbind] at hbound
      exact hbound.elim
  | none =>
    rw [hlookup] at h hbound
    cases hbind : bindings.lookup root with
    | some binding =>
      rw [hbind] at hbound
      exact hbound.elim
    | none =>
      intro json hjson
      have record : ∃ record, contextRecord root = some record ∧ shape = .record record := by
        dsimp only at h
        split at h
        · cases h
          exact ⟨.session, rfl, rfl⟩
        · split_ifs at h
          cases h
          exact ⟨.message, rfl, rfl⟩
        · cases h
          exact ⟨.agent, rfl, rfl⟩
        · cases h
          exact ⟨.global, rfl, rfl⟩
        · cases h
          exact ⟨.repo, rfl, rfl⟩
        · split_ifs at h
          cases h
          exact ⟨.window, rfl, rfl⟩
        · split_ifs at h
          cases h
          exact ⟨.decisions, rfl, rfl⟩
        · split at h
          · cases h
            exact ⟨.turn, rfl, rfl⟩
          · cases h
        · cases h
      obtain ⟨record, hrecord, rfl⟩ := record
      exact hctx root record json hrecord hjson

omit [Platform] in
lemma Conforms.isArray {bound : Option Nat} {shape next : ValueShape} {json : Json}
    (h : v.Conforms shape json) (hnext : (indexRule bound).shape shape = .ok next)
    (hopen : shape.holdsOpen = false) : ∃ items, json = .array items := by
  rcases h.kind (fun _ h => by cases h) hnext hopen with harray | ⟨_, _, _, -, hrecord⟩
  · exact harray
  · cases hrecord

lemma path_sound (rest : List PathSegment) {shape next : ValueShape} {value : RuntimeValue}
    (hnext : v.pathShape rest shape = .ok next) (hvalue : v.Holds shape value) :
    (∀ depth result, (pathSteps rest depth value).Returns result → v.Holds next result) ∧
      ∀ applied, AccessApplies v phase context bindings (rest.map PathSegment.asAccess) false shape
        value applied → applied.shape.holdsOpen = false → applied.fits = true := by
  induction rest generalizing shape value with
  | nil =>
    cases hnext
    refine ⟨fun depth result hresult => ?_, fun applied happl => by cases happl⟩
    rw [pathSteps] at hresult
    rw [hresult.of_pure]
    exact hvalue
  | cons seg rest ih =>
    cases seg with
    | property key =>
      obtain ⟨selected, hsel, hrest⟩ := Except.of_bind_ok hnext
      have hchild := hvalue.property hsel
      obtain ⟨hholds, hfits⟩ := ih hrest hchild
      constructor
      · intro depth result hresult
        obtain ⟨_, -, hresult⟩ := Returns.of_bind hresult
        exact hholds _ result hresult
      · intro applied happl hopen
        cases happl with
        | here static available =>
          cases static
          exact (hvalue _ available).hasProperties hsel hopen
        | property resolved steps =>
          rw [hsel] at resolved
          cases resolved
          exact hfits applied steps hopen
    | index index =>
      obtain ⟨selected, hsel, hrest⟩ := Except.of_bind_ok hnext
      have hchild := hvalue.index hsel
      obtain ⟨hholds, hfits⟩ := ih hrest hchild
      constructor
      · intro depth result hresult
        obtain ⟨_, -, hresult⟩ := Returns.of_bind hresult
        exact hholds _ result hresult
      · intro applied happl hopen
        cases happl with
        | here static available =>
          cases static
          obtain ⟨items, rfl⟩ := (hvalue _ available).isArray hsel hopen
          rfl
        | index resolved steps =>
          rw [hsel] at resolved
          cases resolved
          exact hfits applied steps hopen

/-! ### The induction over the syntax -/

variable (v phase context bindings N)

structure ExpressionSound (expression : Expression) (shape : ValueShape) : Prop where
  holds : ∀ depth value, (evaluate context bindings expression depth).Returns value →
    expression.isComputed = false ∨ N → v.Holds shape value
  fits : ∀ applied, Applies v phase context bindings expression applied →
    applied.computed = false → applied.shape.holdsOpen = false → applied.fits = true

/-- Following the segments from a value keeps conformance, and the steps fit. -/
structure AccessSound (segments : List AccessSegment) (computed : Bool) (next shape : ValueShape)
    (value : RuntimeValue) : Prop where
  holds : ∀ depth position result,
    (access context bindings segments depth position value).Returns result →
      (computed || segments.any AccessSegment.isComputed) = false ∨ N → v.Holds next result
  fits : ∀ applied, AccessApplies v phase context bindings segments computed shape value applied →
    applied.computed = false → applied.shape.holdsOpen = false → applied.fits = true

variable {v phase context bindings N}

lemma items_sound {rest : List AccessSegment} {computed : Bool} {shape next : ValueShape}
    {source : RuntimeValue} (entries : List (PathSegment × Json))
    (hitems : ∀ seg item, (seg, item) ∈ entries → computed = false ∨ N →
      v.Conforms shape item)
    (hN : N → ∀ applied, ItemsApply v phase context bindings rest computed shape source entries
      applied → ¬ applied.Miscounts v)
    (hrest : ∀ value, (computed = false ∨ N → v.Holds shape value) →
      (N → ∀ applied, AccessApplies v phase context bindings rest computed shape value applied →
        ¬ applied.Miscounts v) →
      AccessSound v phase context bindings N rest computed next shape value) :
    (∀ depth pos level result json deps output metadata,
      (projectItems (access context bindings rest depth pos) level source deps
        entries output metadata).Returns result →
      (computed || rest.any AccessSegment.isComputed) = false ∨ N →
      (∀ chosen ∈ output, v.Conforms next chosen) → result.value = some json →
        v.Conforms (.array next) json) ∧
    ∀ applied, ItemsApply v phase context bindings rest computed shape source entries applied →
      applied.computed = false → applied.shape.holdsOpen = false → applied.fits = true := by
  induction entries with
  | nil =>
    refine ⟨?_, fun applied happl => by cases happl⟩
    intro depth pos level result json deps output metadata hresult _ houtput hjson
    rw [projectItems] at hresult
    obtain ⟨array, harray, hresult⟩ := hresult.of_bind
    rw [hresult.of_pure] at hjson
    rw [returns_ofOwned harray] at hjson
    cases hjson
    exact .array houtput
  | cons entry entries ih =>
    obtain ⟨seg, item⟩ := entry
    have head := hrest ⟨some item, source.owned, source.metadata.child seg⟩
      (fun hfree json hjson => by
        cases hjson
        exact hitems seg item List.mem_cons_self hfree)
      (fun hn applied happl => hN hn applied (.here happl))
    have tail := fun hN => ih (fun seg item hmem =>
      hitems seg item (List.mem_cons_of_mem _ hmem)) hN
    constructor
    · intro depth pos level result json deps output metadata hresult hfree houtput
        hjson
      obtain ⟨selected, chosen, metadata', hsel, hchosen, hresult⟩ :=
        returns_projectItems_cons hresult hjson
      have hN' := fun hn applied happl => hN hn applied
        (.later hsel (by rw [hchosen]; rfl) happl)
      refine (tail hN').1 depth pos level result json deps _ metadata' hresult hfree
        ?_ hjson
      intro other hother
      rcases List.mem_append.mp hother with hother | hother
      · exact houtput other hother
      · rw [List.mem_singleton.mp hother]
        exact head.holds depth pos selected hsel hfree chosen hchosen
    · intro applied happl
      cases happl with
      | here steps => exact head.fits applied steps
      | later evaluated available steps =>
        exact (tail fun hn applied happl => hN hn applied
          (.later evaluated available happl)).2 applied steps

section Induction

set_option linter.unusedSectionVars false

variable (hnums : ReadsNumbers) (hctx : v.ConformsContext context)
  (hbinds : v.Binds phase bindings)
include hnums hctx hbinds

mutual

lemma expression_sound (expr : Expression) {shape : ValueShape}
    (h : v.resolveExpression phase expr = .ok shape)
    (hread : ∀ number ∈ expr.numbers, ∃ text, Platform.parseNumber text = some number)
    (hN : N → ∀ applied, Applies v phase context bindings expr applied →
      ¬ applied.Miscounts v) :
    ExpressionSound v phase context bindings N expr shape := by
  cases expr with
  | literal literal =>
    rw [resolveExpression] at h
    cases h
    refine ⟨fun depth value hvalue _ json hjson => ?_, fun applied happl => by cases happl⟩
    rw [evaluate_literal hvalue] at hjson
    cases hjson
    cases literal <;> exact .scalar rfl
  | path segs =>
    cases segs with
    | nil => cases h
    | cons seg rest =>
      cases seg with
      | index index => cases h
      | property root =>
        rw [resolveExpression] at h
        obtain ⟨start, hstart, h⟩ := Except.of_bind_ok h
        have hroot := holds_pathRoot hctx hbinds hstart
        have hpath : _ ∧ ∀ applied, AccessApplies v phase context bindings
            (rest.map PathSegment.asAccess) false start (pathRoot context bindings root) applied →
              applied.shape.holdsOpen = false → applied.fits = true := path_sound rest h hroot
        obtain ⟨hholds, hfits⟩ := hpath
        constructor
        · intro depth value hvalue _
          rw [evaluate] at hvalue
          obtain ⟨_, -, hvalue⟩ := hvalue.of_bind
          exact hholds depth value hvalue
        · intro applied happl _ hopen
          cases happl with
          | path resolved steps =>
            rw [hstart] at resolved
            cases resolved
            exact hfits applied steps hopen
  | access base segs =>
    rw [resolveExpression] at h
    obtain ⟨start, hstart, h⟩ := Except.of_bind_ok h
    have hbase := expression_sound base hstart
      (fun number hnumber => hread number (List.mem_append_left _ hnumber))
      (fun hn applied happl => hN hn applied (.base happl))
    have hsegs : ∀ depth value, (evaluate context bindings base depth).Returns value →
        AccessSound v phase context bindings N segs base.isComputed shape start value :=
      fun depth value hvalue => access_sound segs h
        (fun number hnumber => hread number (List.mem_append_right _ hnumber))
        (fun hfree => hbase.holds depth value hvalue hfree)
        (fun hn applied happl => hN hn applied (.access hstart hvalue happl))
    constructor
    · intro depth value hvalue hfree
      rw [evaluate] at hvalue
      obtain ⟨_, -, hvalue⟩ := hvalue.of_bind
      obtain ⟨origin, horigin, hvalue⟩ := hvalue.of_bind
      exact (hsegs _ origin horigin).holds _ _ value hvalue hfree
    · intro applied happl
      cases happl with
      | base inner => exact hbase.fits applied inner
      | access resolved evaluated steps =>
        rw [hstart] at resolved
        cases resolved
        exact (hsegs _ _ evaluated).fits applied steps
  | call function args =>
    rw [resolveExpression] at h
    obtain ⟨_, hargs, h⟩ := Except.of_bind_ok h
    have hfits := arguments_sound args hargs hread
      (fun hn applied happl => hN hn applied (.argument happl))
    constructor
    · intro depth value hvalue _ json hjson
      by_cases hfun : function = .fromJSON
      · rw [if_pos hfun] at h
        cases h
        exact .opened json
      · rw [if_neg hfun] at h
        cases h
        rw [evaluate] at hvalue
        obtain ⟨_, -, hvalue⟩ := hvalue.of_bind
        split at hvalue
        · exact (Returns.of_fail hvalue).elim
        · obtain ⟨⟨trace, values⟩, -, hvalue⟩ := Returns.of_bind hvalue
          cases values with
          | none =>
            rw [Returns.of_pure hvalue] at hjson
            cases hjson
          | some values =>
            exact .scalar (applyFunction_isScalar hfun values trace depth value hvalue json hjson)
    · intro applied happl
      cases happl with
      | argument inner => exact hfits applied inner
  | not value =>
    rw [resolveExpression] at h
    obtain ⟨inner, hinner, h⟩ := Except.of_bind_ok h
    cases h
    have hvalue := expression_sound value hinner hread
      (fun hn applied happl => hN hn applied (.not happl))
    constructor
    · intro depth result hresult _ json hjson
      rw [evaluate] at hresult
      obtain ⟨_, -, hresult⟩ := hresult.of_bind
      obtain ⟨operand, -, hresult⟩ := hresult.of_bind
      split at hresult
      · rw [hresult.of_pure] at hjson
        cases hjson
        exact .scalar rfl
      · rw [hresult.of_pure] at hjson
        cases hjson
    · intro applied happl
      cases happl with
      | not inner => exact hvalue.fits applied inner
  | binary operator left right =>
    rw [resolveExpression] at h
    obtain ⟨leftShape, hleftShape, h⟩ := Except.of_bind_ok h
    obtain ⟨rightShape, hrightShape, h⟩ := Except.of_bind_ok h
    cases h
    have hleft := expression_sound left hleftShape
      (fun number hnumber => hread number (List.mem_append_left _ hnumber))
      (fun hn applied happl => hN hn applied (.left happl))
    have hright : ∀ depth value json, (evaluate context bindings left depth).Returns value →
        value.value = some json → shortCircuits operator json = false →
          ExpressionSound v phase context bindings N right rightShape :=
      fun depth value json hvalue hjson hcont => expression_sound right hrightShape
        (fun number hnumber => hread number (List.mem_append_right _ hnumber))
        (fun hn applied happl => hN hn applied (.right hvalue hjson hcont happl))
    constructor
    · intro depth value hvalue hfree json hjson
      rw [evaluate] at hvalue
      obtain ⟨_, -, hvalue⟩ := hvalue.of_bind
      obtain ⟨leftValue, hleftValue, hvalue⟩ := hvalue.of_bind
      split at hvalue
      · next hnone =>
        rw [hvalue.of_pure, hnone] at hjson
        cases hjson
      · next leftJson hleftJson =>
        by_cases hlogic : operator = .and ∨ operator = .or
        · have hsides : (left.isComputed = false ∨ N) ∧ (right.isComputed = false ∨ N) := by
            have hcmpd : (Expression.binary operator left right).isComputed =
                (left.isComputed || right.isComputed) := by
              rcases hlogic with rfl | rfl <;> rw [Expression.isComputed]
            rw [hcmpd, Bool.or_eq_false_iff] at hfree
            exact ⟨hfree.imp And.left id, hfree.imp And.right id⟩
          have hconforms := hleft.holds _ leftValue hleftValue hsides.1 leftJson hleftJson
          have htruth : ∀ known, knownTruth left = some known → isTruthy leftJson = known :=
            fun known hknown => isTruthy_of_knownTruth hnums
              (fun number hnumber => hread number (List.mem_append_left _ hnumber)) hknown
              hleftValue hleftJson
          obtain ⟨hstop, hgo⟩ := @Conforms.binary _ operator hlogic _ _ rightShape _ hconforms
            htruth
          split at hvalue
          · next hshort =>
            rw [hvalue.of_pure, hleftJson] at hjson
            cases hjson
            exact hstop hshort
          · next hcont =>
            rw [Bool.not_eq_true] at hcont
            obtain ⟨rightValue, hrightValue, hvalue⟩ := Returns.of_bind hvalue
            have hresult : rightValue.value = some json := by
              rcases hlogic with rfl | rfl <;> (rw [Returns.of_pure hvalue] at hjson; exact hjson)
            exact hgo json hcont ((hright _ leftValue leftJson hleftValue hleftJson
              hcont).holds _ rightValue hrightValue hsides.2 json hresult)
        · have hshort : shortCircuits operator leftJson = false := by
            cases operator <;> simp_all [shortCircuits]
          have hshape : binaryShape operator (knownTruth left) leftShape rightShape = .scalar := by
            cases operator <;> simp_all [binaryShape]
          rw [hshort, if_neg Bool.false_ne_true] at hvalue
          obtain ⟨rightValue, -, hvalue⟩ := Returns.of_bind hvalue
          have hcompare : (compareValues operator leftValue rightValue).Returns value := by
            cases operator <;> simp_all
          rw [hshape]
          exact .scalar (compareValues_isScalar operator leftValue rightValue value hcompare json
            hjson)
    · intro applied happl
      cases happl with
      | left inner => exact hleft.fits applied inner
      | right evaluated available continues inner =>
        exact (hright _ _ _ evaluated available continues).fits applied inner

lemma access_sound (segs : List AccessSegment) {computed : Bool} {shape next : ValueShape}
    {value : RuntimeValue} (h : v.accessShape phase segs shape = .ok next)
    (hread : ∀ number ∈ segmentNumbers segs, ∃ text, Platform.parseNumber text = some number)
    (hvalue : computed = false ∨ N → v.Holds shape value)
    (hN : N → ∀ applied, AccessApplies v phase context bindings segs computed shape value
      applied → ¬ applied.Miscounts v) :
    AccessSound v phase context bindings N segs computed next shape value := by
  cases segs with
  | nil =>
    rw [accessShape] at h
    cases h
    refine ⟨fun depth pos result hresult hfree => ?_, fun applied happl => by cases happl⟩
    rw [access] at hresult
    rw [hresult.of_pure]
    rw [List.any_nil, Bool.or_false] at hfree
    exact hvalue hfree
  | cons seg rest =>
    cases seg with
    | property key =>
      rw [accessShape] at h
      obtain ⟨selected, hsel, h⟩ := Except.of_bind_ok h
      have hrest : AccessSound v phase context bindings N rest computed next selected
          (select value (.property key)) :=
        access_sound rest h hread (fun hfree => (hvalue hfree).property hsel)
          (fun hn applied happl => hN hn applied (.property hsel happl))
      constructor
      · intro depth pos result hresult hfree json hjson
        rw [access] at hresult
        replace hresult := returns_of_available hresult (.inl hjson)
        exact hrest.holds _ _ result hresult hfree json hjson
      · intro applied happl hcmpd hopen
        cases happl with
        | here static available =>
          cases static
          exact (hvalue (.inl hcmpd) _ available).hasProperties hsel hopen
        | property resolved steps =>
          rw [hsel] at resolved
          cases resolved
          exact hrest.fits applied steps hcmpd hopen
    | index index =>
      rw [accessShape] at h
      obtain ⟨selected, hsel, h⟩ := Except.of_bind_ok h
      have hrest : AccessSound v phase context bindings N rest computed next selected
          (select value (.index index)) :=
        access_sound rest h hread (fun hfree => (hvalue hfree).index hsel)
          (fun hn applied happl => hN hn applied (.index hsel happl))
      constructor
      · intro depth pos result hresult hfree json hjson
        rw [access] at hresult
        replace hresult := returns_of_available hresult (.inl hjson)
        exact hrest.holds _ _ result hresult hfree json hjson
      · intro applied happl hcmpd hopen
        cases happl with
        | here static available =>
          cases static
          obtain ⟨items, rfl⟩ := (hvalue (.inl hcmpd) _ available).isArray hsel hopen
          rfl
        | index resolved steps =>
          rw [hsel] at resolved
          cases resolved
          exact hrest.fits applied steps hcmpd hopen
    | dynamic selector =>
      rw [accessShape] at h
      obtain ⟨selectorResult, hselectorShape, h⟩ := Except.of_bind_ok h
      obtain ⟨selected, hsel, h⟩ := Except.of_bind_ok h
      have hselr := fun available => expression_sound selector hselectorShape
        (fun number hnumber => hread number (List.mem_append_left _ hnumber))
        (fun hn applied happl => hN hn applied (.selector available happl))
      have hrest : ∀ depth key json seg,
          (evaluate context bindings selector depth).Returns key → key.value = some json →
            (dynamicSegment json).Returns (some seg) →
              AccessSound v phase context bindings N rest
                (computed || (AccessSegment.dynamic selector).isComputed) next selected
                (select { value with
                  metadata := { value.metadata with
                    dependencies := value.metadata.dependencies.merge key.trace } } seg) := by
        intro depth key json seg hkey hjson hseg
        refine access_sound rest h
          (fun number hnumber => hread number (List.mem_append_right _ hnumber)) ?_
          (fun hn applied happl =>
            hN hn applied (.dynamic hkey hjson hseg hsel happl))
        intro hfree
        have hholds : computed = false ∨ N := hfree.imp (fun hor => (Bool.or_eq_false_iff.mp hor).1) id
        refine Holds.bracket (hvalue hholds) hkey hjson hseg hsel ?_
        intro source hsource flag
        rcases hfree with hliter | hn
        · exact not_miscounts_selectorStep (Bool.or_eq_false_iff.mp hliter).2
        · have hbrk : AccessApplies v phase context bindings (.dynamic selector :: rest) computed
              shape value ⟨selectorStep json selector, shape, source,
                computed || (AccessSegment.dynamic selector).isComputed⟩ :=
            .bracket hsource hkey hjson
          have hcount := hN hn _ hbrk
          exact hcount
      constructor
      · intro depth pos result hresult hfree json hjson
        rw [access] at hresult
        replace hresult := returns_of_available hresult (.inl hjson)
        obtain ⟨key, hkey, hresult⟩ := Returns.of_bind hresult
        dsimp only at hresult
        split at hresult
        · rw [Returns.of_pure hresult] at hjson
          cases hjson
        · next keyJson hkeyJson =>
          obtain ⟨seg, hseg, hresult⟩ := Returns.of_bind hresult
          cases seg with
          | none =>
            rw [Returns.of_pure hresult] at hjson
            cases hjson
          | some seg =>
            refine (hrest _ key keyJson seg hkey hkeyJson hseg).holds _ _ result hresult
              ?_ json hjson
            rw [Bool.or_assoc]
            exact hfree
      · intro applied happl hcmpd hopen
        cases happl with
        | here static available => cases static
        | bracket available evaluated keyAvailable =>
          obtain ⟨hflag, hliter⟩ := Bool.or_eq_false_iff.mp hcmpd
          exact (hvalue (.inl hflag) _ available).fits_selectorStep hliter hsel hopen
        | selector available inner => exact (hselr available).fits applied inner hcmpd hopen
        | dynamic evaluated keyAvailable denoted resolved steps =>
          rw [hsel] at resolved
          cases resolved
          exact (hrest _ _ _ _ evaluated keyAvailable denoted).fits applied steps hcmpd hopen
    | projection =>
      rw [accessShape] at h
      obtain ⟨item, hitem, h⟩ := Except.of_bind_ok h
      obtain ⟨selected, hsel, h⟩ := Except.of_bind_ok h
      cases h
      have hitems : ∀ json entries, value.value = some json →
          projectionEntries json = some entries → ∀ seg child, (seg, child) ∈ entries →
            computed = false ∨ N → v.Conforms item child :=
        fun json entries hjson hents seg child hmem hfree =>
          (hvalue hfree json hjson).child projectionRule_keeps hitem ⟨entries, seg, hents, hmem⟩
      have hwalk := fun json entries (hjson : value.value = some json)
          (hents : projectionEntries json = some entries) =>
        items_sound entries (hitems json entries hjson hents)
          (fun hn applied happl => hN hn applied (.projection hitem hjson hents happl))
          (fun other hother hN => access_sound rest hsel hread hother hN)
      constructor
      · intro depth pos result hresult hfree json hjson
        rw [access] at hresult
        replace hresult := returns_of_available hresult (.inl hjson)
        obtain ⟨source, entries, deps, hsource, hents, hresult⟩ :=
          returns_project hresult hjson
        exact (hwalk source entries hsource hents).1 _ _ _ result json deps [] []
          hresult hfree (fun _ hmem => by cases hmem) hjson
      · intro applied happl hcmpd hopen
        cases happl with
        | here static available =>
          cases static
          rcases (hvalue (.inl hcmpd) _ available).kind (fun _ h => by cases h) hitem hopen with
            ⟨_, rfl⟩ | ⟨_, _, _, rfl, -⟩
          · rfl
          · rfl
        | projection resolved available projected steps =>
          rw [hitem] at resolved
          cases resolved
          exact (hwalk _ _ available projected).2 applied steps hcmpd hopen

lemma arguments_sound (args : List Expression)
    (h : v.resolveArguments phase args = .ok ())
    (hread : ∀ number ∈ argumentNumbers args, ∃ text, Platform.parseNumber text = some number)
    (hN : N → ∀ applied, ArgumentsApply v phase context bindings args applied →
      ¬ applied.Miscounts v) :
    ∀ applied, ArgumentsApply v phase context bindings args applied →
      applied.computed = false → applied.shape.holdsOpen = false → applied.fits = true := by
  intro applied happl
  cases args with
  | nil => cases happl
  | cons argument rest =>
    rw [resolveArguments] at h
    obtain ⟨shape, hshape, h⟩ := Except.of_bind_ok h
    cases happl with
    | here inner =>
      exact (expression_sound argument hshape
        (fun number hnumber => hread number (List.mem_append_left _ hnumber))
        (fun hn applied happl => hN hn applied (.here happl))).fits applied inner
    | later evaluated available inner =>
      exact arguments_sound rest h
        (fun number hnumber => hread number (List.mem_append_right _ hnumber))
        (fun hn applied happl => hN hn applied (.later evaluated available happl))
        applied inner

end

end Induction

/-! ### Missing values -/

variable {keyJson : Json} {depth : Nat} {seg : PathSegment}

omit [Platform] in
/-- A fitting fixed step that selects nothing lacks its field or item. -/
lemma absent_of_select {value : RuntimeValue} {step : ReferenceStep}
    {json : Json} {shape : ValueShape} {computed : Bool}
    (hstep : seg.asAccess.staticStep = some step) (hjson : value.value = some json)
    (hnone : (select value seg).value = none)
    (hfits : (⟨step, shape, json, computed⟩ : AppliedStep).fits = true) :
    (⟨step, shape, json, computed⟩ : AppliedStep).absent = true := by
  rw [select_value, hjson, Option.bind_some] at hnone
  cases seg with
  | property key =>
    cases hstep
    cases json with
    | object entries => simpa [AppliedStep.absent, childOf, propertyOf] using hnone
    | array items =>
      have hkey : key = "length" := of_decide_eq_true hfits
      simp [childOf, propertyOf, hkey] at hnone
    | null | bool _ | number _ | string _ => cases hfits
  | index index =>
    cases hstep
    cases json with
    | array items => simpa [AppliedStep.absent, childOf, itemOf] using hnone
    | null | bool _ | number _ | string _ | object _ => cases hfits

lemma items_unavailable {rest : List AccessSegment} {shape : ValueShape} {source : RuntimeValue}
    {pos level : Nat} (entries : List (PathSegment × Json))
    (hfits : ∀ applied, ItemsApply v phase context bindings rest false shape source entries applied →
      applied.computed = false → applied.shape.holdsOpen = false → applied.fits = true)
    (hrest : ∀ value json result, value.value = some json →
      (∀ applied, AccessApplies v phase context bindings rest false shape value applied →
        applied.computed = false → applied.shape.holdsOpen = false → applied.fits = true) →
      (access context bindings rest depth pos value).Returns result → result.value = none →
        ∃ applied, AccessApplies v phase context bindings rest false shape value applied ∧
          applied.Lacks)
    {deps : EvaluationTrace} {output : List Json} {metadata : List ValueMetadata}
    {result : RuntimeValue}
    (h : (projectItems (access context bindings rest depth pos) level source deps
      entries output metadata).Returns result) (hnone : result.value = none) :
    ∃ applied, ItemsApply v phase context bindings rest false shape source entries applied ∧
      applied.Lacks := by
  induction entries generalizing output metadata with
  | nil =>
    rw [projectItems] at h
    obtain ⟨array, harray, h⟩ := h.of_bind
    rw [h.of_pure] at hnone
    rw [returns_ofOwned harray] at hnone
    cases hnone
  | cons entry entries ih =>
    obtain ⟨seg, item⟩ := entry
    rw [projectItems] at h
    obtain ⟨selected, hsel, h⟩ := h.of_bind
    split at h
    · next hmissing =>
      obtain ⟨applied, happl, hlacks⟩ := hrest _ item selected rfl
        (fun applied happl => hfits applied (.here happl)) hsel hmissing
      exact ⟨applied, .here happl, hlacks⟩
    · next chosen hchosen =>
      obtain ⟨finished, hfin, h⟩ := h.of_bind
      have havail : selected.value.isSome = true := by rw [hchosen]; rfl
      split at h
      · obtain ⟨applied, happl, hlacks⟩ := ih (fun applied happl =>
          hfits applied (.later hsel havail happl)) h
        exact ⟨applied, .later hsel havail happl, hlacks⟩
      · next hcopy =>
        rw [returns_finish hfin, hchosen] at hcopy
        cases hcopy

omit [Platform] in
lemma lacks_of_absent {step : ReferenceStep} {json : Json} {shape : ValueShape}
    (h : shape.holdsOpen = false → (⟨step, shape, json, false⟩ : AppliedStep).absent = true) :
    (⟨step, shape, json, false⟩ : AppliedStep).Lacks := by
  refine ⟨rfl, ?_⟩
  cases hopen : shape.holdsOpen with
  | true => exact .inl rfl
  | false => exact .inr (h hopen)

omit [Platform] in
lemma lacks_of_select {value : RuntimeValue} {seg : PathSegment} {step : ReferenceStep}
    {json : Json} {shape : ValueShape} (hstep : seg.asAccess.staticStep = some step)
    (hjson : value.value = some json) (hnone : (select value seg).value = none)
    (hfits : shape.holdsOpen = false → (⟨step, shape, json, false⟩ : AppliedStep).fits = true) :
    (⟨step, shape, json, false⟩ : AppliedStep).Lacks :=
  lacks_of_absent fun hopen => absent_of_select hstep hjson hnone (hfits hopen)

section

variable {selector : Expression} (hliter : (AccessSegment.dynamic selector).isComputed = false)
include hliter

lemma literal_available
    {key : RuntimeValue} (hkey : (evaluate context bindings selector depth).Returns key) :
    ∃ json, key.value = some json := by
  rcases literal_cases hliter with ⟨text, rfl⟩ | ⟨number, rfl⟩
  · exact ⟨_, evaluate_literal hkey⟩
  · exact ⟨_, evaluate_literal hkey⟩

lemma absent_of_dynamicSegment_none {key : RuntimeValue} {json : Json} {shape : ValueShape}
    (hkey : (evaluate context bindings selector depth).Returns key)
    (hkeyJson : key.value = some keyJson) (hdenot : (dynamicSegment keyJson).Returns none)
    (hfits : (⟨selectorStep keyJson selector, shape, json, false⟩ : AppliedStep).fits = true) :
    (⟨selectorStep keyJson selector, shape, json, false⟩ : AppliedStep).absent = true := by
  rcases literal_cases hliter with ⟨text, rfl⟩ | ⟨number, rfl⟩
  · rw [evaluate_literal hkey] at hkeyJson
    cases hkeyJson
    obtain ⟨_, -, hdenot⟩ := Returns.of_bind hdenot
    cases hdenot.of_pure
  · rw [evaluate_literal hkey] at hkeyJson
    cases hkeyJson
    have hindex : number.integralIndex = none := by
      have hnone := Returns.of_pure hdenot
      cases hindex : number.integralIndex with
      | none => rfl
      | some index => simp [hindex] at hnone
    cases json with
    | array items => simp [AppliedStep.absent, selectorStep, hindex]
    | null | bool _ | number _ | string _ | object _ => cases hfits

lemma absent_of_dynamicSegment_some {key value : RuntimeValue} {json : Json} {shape : ValueShape}
    (hkey : (evaluate context bindings selector depth).Returns key)
    (hkeyJson : key.value = some keyJson)
    (hdenot : (dynamicSegment keyJson).Returns (some seg))
    (hjson : value.value = some json) (hnone : (select value seg).value = none)
    (hfits : (⟨selectorStep keyJson selector, shape, json, false⟩ : AppliedStep).fits = true) :
    (⟨selectorStep keyJson selector, shape, json, false⟩ : AppliedStep).absent = true := by
  rcases literal_cases hliter with ⟨text, rfl⟩ | ⟨number, rfl⟩
  · rw [evaluate_literal hkey] at hkeyJson
    cases hkeyJson
    rcases returns_dynamicSegment hdenot with ⟨_, heq, rfl⟩ | ⟨_, _, heq, -⟩
    · cases heq
      exact absent_of_select rfl hjson hnone hfits
    · cases heq
  · rw [evaluate_literal hkey] at hkeyJson
    cases hkeyJson
    rcases returns_dynamicSegment hdenot with ⟨_, heq, -⟩ | ⟨_, index, heq, hindex, rfl⟩
    · cases heq
    · cases heq
      rw [select_value, hjson, Option.bind_some] at hnone
      cases json with
      | array items =>
        simpa [AppliedStep.absent, selectorStep, hindex, childOf, itemOf] using hnone
      | null | bool _ | number _ | string _ | object _ => cases hfits

end

lemma path_unavailable (rest : List PathSegment) {shape next : ValueShape} {value : RuntimeValue}
    {json : Json} (hjson : value.value = some json) (hnext : v.pathShape rest shape = .ok next)
    (hfits : ∀ applied, AccessApplies v phase context bindings (rest.map PathSegment.asAccess) false
      shape value applied → applied.computed = false → applied.shape.holdsOpen = false →
        applied.fits = true)
    {depth : Nat} {result : RuntimeValue} (h : (pathSteps rest depth value).Returns result)
    (hnone : result.value = none) :
    ∃ applied, AccessApplies v phase context bindings (rest.map PathSegment.asAccess) false shape
      value applied ∧ applied.Lacks := by
  induction rest generalizing shape value json depth with
  | nil =>
    rw [pathSteps] at h
    rw [h.of_pure, hjson] at hnone
    cases hnone
  | cons seg rest ih =>
    obtain ⟨_, -, h⟩ := Returns.of_bind h
    -- the step itself, and the steps behind it
    have here : ∀ step, seg.asAccess.staticStep = some step →
        AccessApplies v phase context bindings ((seg :: rest).map PathSegment.asAccess) false
          shape value ⟨step, shape, json, false⟩ := fun step hstep => .here hstep hjson
    have behind : ∃ selected, v.pathShape rest selected = .ok next ∧ ∀ applied,
        AccessApplies v phase context bindings (rest.map PathSegment.asAccess) false selected
          (select value seg) applied →
        AccessApplies v phase context bindings ((seg :: rest).map PathSegment.asAccess) false
          shape value applied := by
      cases seg with
      | property key =>
        obtain ⟨selected, hsel, hrest⟩ := Except.of_bind_ok hnext
        exact ⟨selected, hrest, fun applied happl => .property hsel happl⟩
      | index index =>
        obtain ⟨selected, hsel, hrest⟩ := Except.of_bind_ok hnext
        exact ⟨selected, hrest, fun applied happl => .index hsel happl⟩
    obtain ⟨selected, hrest, hbehind⟩ := behind
    cases hchild : (select value seg).value with
    | none =>
      have hstep : ∃ step, seg.asAccess.staticStep = some step := by
        cases seg <;> exact ⟨_, rfl⟩
      obtain ⟨step, hstep⟩ := hstep
      exact ⟨_, here step hstep, lacks_of_select hstep hjson hchild
        fun hopen => hfits _ (here step hstep) rfl hopen⟩
    | some child =>
      obtain ⟨applied, happl, hlacks⟩ := ih hchild hrest
        (fun applied happl => hfits applied (hbehind applied happl)) h
      exact ⟨applied, hbehind applied happl, hlacks⟩

lemma access_unavailable (segs : List AccessSegment)
    (hfixed : segs.any AccessSegment.isComputed = false) {shape next : ValueShape}
    {value : RuntimeValue} {json : Json} (hjson : value.value = some json)
    (hnext : v.accessShape phase segs shape = .ok next)
    (hfits : ∀ applied, AccessApplies v phase context bindings segs false shape value applied →
      applied.computed = false → applied.shape.holdsOpen = false → applied.fits = true)
    {depth pos : Nat} {result : RuntimeValue}
    (h : (access context bindings segs depth pos value).Returns result)
    (hnone : result.value = none) :
    ∃ applied, AccessApplies v phase context bindings segs false shape value applied ∧
      applied.Lacks := by
  cases segs with
  | nil =>
    rw [access] at h
    rw [h.of_pure, hjson] at hnone
    cases hnone
  | cons seg rest =>
    have hrest : rest.any AccessSegment.isComputed = false := by
      rw [List.any_cons, Bool.or_eq_false_iff] at hfixed
      exact hfixed.2
    cases seg with
    | property key =>
      rw [accessShape] at hnext
      obtain ⟨selected, hsel, hnext⟩ := Except.of_bind_ok hnext
      rw [access] at h
      replace h := returns_of_available h (.inr hjson)
      cases hchild : (select value (.property key)).value with
      | none =>
        exact ⟨_, .here rfl hjson, @lacks_of_select _ (.property key) _ _ _ rfl hjson hchild
          fun hopen => hfits _ (.here rfl hjson) rfl hopen⟩
      | some child =>
        obtain ⟨applied, happl, hlacks⟩ := access_unavailable rest hrest hchild hnext
          (fun applied happl => hfits applied (.property hsel happl)) h hnone
        exact ⟨applied, .property hsel happl, hlacks⟩
    | index index =>
      rw [accessShape] at hnext
      obtain ⟨selected, hsel, hnext⟩ := Except.of_bind_ok hnext
      rw [access] at h
      replace h := returns_of_available h (.inr hjson)
      cases hchild : (select value (.index index)).value with
      | none =>
        exact ⟨_, .here rfl hjson, @lacks_of_select _ (.index index) _ _ _ rfl hjson hchild
          fun hopen => hfits _ (.here rfl hjson) rfl hopen⟩
      | some child =>
        obtain ⟨applied, happl, hlacks⟩ := access_unavailable rest hrest hchild hnext
          (fun applied happl => hfits applied (.index hsel happl)) h hnone
        exact ⟨applied, .index hsel happl, hlacks⟩
    | projection =>
      rw [accessShape] at hnext
      obtain ⟨item, hitem, hnext⟩ := Except.of_bind_ok hnext
      obtain ⟨selected, hsel, hnext⟩ := Except.of_bind_ok hnext
      rw [access] at h
      replace h := returns_of_available h (.inr hjson)
      have hhere : AccessApplies v phase context bindings (.projection :: rest) false shape value
          ⟨.projection, shape, json, false⟩ := .here rfl hjson
      unfold project at h
      obtain ⟨_, -, h⟩ := h.of_bind
      dsimp only at h
      rw [hjson] at h
      dsimp only at h
      split at h
      · next hents =>
        refine ⟨_, hhere, lacks_of_absent fun hopen => ?_⟩
        have hkind := hfits _ hhere rfl hopen
        cases json <;> cases hents <;> cases hkind
      · next entries hents =>
        obtain ⟨_, -, h⟩ := h.of_bind
        obtain ⟨_, -, h⟩ := h.of_bind
        have hlast : ∃ deps, (projectItems (access context bindings rest (depth + 1) 0)
            (depth + 1) value deps entries [] []).Returns result := by
          split at h
          · obtain ⟨_, -, h⟩ := h.of_bind
            exact ⟨_, h⟩
          · exact ⟨_, h⟩
        obtain ⟨deps, h⟩ := hlast
        obtain ⟨applied, happl, hlacks⟩ := items_unavailable entries
          (fun applied happl => hfits applied (.projection hitem hjson hents happl))
          (fun other json result hjson hfits h hnone =>
            access_unavailable rest hrest hjson hsel hfits h hnone) h hnone
        exact ⟨applied, .projection hitem hjson hents happl, hlacks⟩
    | dynamic selector =>
      have hliter : (AccessSegment.dynamic selector).isComputed = false := by
        rw [List.any_cons, Bool.or_eq_false_iff] at hfixed
        exact hfixed.1
      rw [accessShape] at hnext
      obtain ⟨_, -, hnext⟩ := Except.of_bind_ok hnext
      obtain ⟨selected, hsel, hnext⟩ := Except.of_bind_ok hnext
      rw [access] at h
      replace h := returns_of_available h (.inr hjson)
      obtain ⟨key, hkey, h⟩ := Returns.of_bind h
      obtain ⟨keyJson, hkeyJson⟩ := literal_available hliter hkey
      dsimp only at h
      rw [hkeyJson] at h
      obtain ⟨denoted, hdenot, h⟩ := Returns.of_bind h
      -- a literal selector is no computed one
      have hflag : (false || (AccessSegment.dynamic selector).isComputed) = false := by
        rw [hliter, Bool.or_false]
      have hhere : AccessApplies v phase context bindings (.dynamic selector :: rest) false shape
          value ⟨selectorStep keyJson selector, shape, json, false⟩ := by
        have hbrk : AccessApplies v phase context bindings (.dynamic selector :: rest) false
            shape value ⟨selectorStep keyJson selector, shape, json,
              false || (AccessSegment.dynamic selector).isComputed⟩ := .bracket hjson hkey hkeyJson
        rwa [hflag] at hbrk
      cases denoted with
      | none =>
        exact ⟨_, hhere, lacks_of_absent fun hopen => absent_of_dynamicSegment_none hliter hkey
          hkeyJson hdenot (hfits _ hhere rfl hopen)⟩
      | some seg =>
        cases hchild : (select value seg).value with
        | none =>
          exact ⟨_, hhere, lacks_of_absent fun hopen => absent_of_dynamicSegment_some hliter hkey
            hkeyJson hdenot hjson hchild (hfits _ hhere rfl hopen)⟩
        | some child =>
          have hbehind : ∀ applied, AccessApplies v phase context bindings rest false selected
              (select { value with
                metadata := { value.metadata with
                  dependencies := value.metadata.dependencies.merge key.trace } } seg) applied →
              AccessApplies v phase context bindings (.dynamic selector :: rest) false shape value
                applied := fun applied happl =>
            .dynamic hkey hkeyJson hdenot hsel (by rw [hflag]; exact happl)
          have hchild' : (select { value with
              metadata := { value.metadata with
                dependencies := value.metadata.dependencies.merge key.trace } } seg).value =
              some child := by
            rw [select_value] at hchild ⊢
            exact hchild
          obtain ⟨applied, happl, hlacks⟩ := access_unavailable rest hrest hchild' hnext
            (fun applied happl => hfits applied (hbehind applied happl)) h hnone
          exact ⟨applied, hbehind applied happl, hlacks⟩

omit [Platform] in
lemma isComputed_of_isReference (expr : Expression) (h : expr.isReference = true) :
    expr.isComputed = false := by
  cases expr with
  | access base segs =>
    rw [Expression.isReference, Bool.and_eq_true, Bool.not_eq_true'] at h
    rw [Expression.isComputed, isComputed_of_isReference base h.1, h.2]
    rfl
  | path _ => rfl
  | _ => cases h

lemma reference_unavailable (expr : Expression)
    (hrefn : expr.isReference = true) {shape : ValueShape}
    (h : v.resolveExpression phase expr = .ok shape)
    (hfits : ∀ applied, Applies v phase context bindings expr applied →
      applied.computed = false → applied.shape.holdsOpen = false → applied.fits = true)
    {depth : Nat} {value : RuntimeValue}
    (hvalue : (evaluate context bindings expr depth).Returns value)
    (hnone : value.value = none) :
    expr.rootAbsent context bindings = true ∨
      ∃ applied, Applies v phase context bindings expr applied ∧ applied.Lacks := by
  cases expr with
  | path segs =>
    cases segs with
    | nil => cases h
    | cons seg rest =>
      cases seg with
      | index index => cases h
      | property root =>
        rw [resolveExpression] at h
        obtain ⟨start, hstart, h⟩ := Except.of_bind_ok h
        rw [evaluate] at hvalue
        obtain ⟨_, -, hvalue⟩ := hvalue.of_bind
        cases hroot : (pathRoot context bindings root).value with
        | none =>
          left
          rw [Expression.rootAbsent, hroot]
          rfl
        | some json =>
          right
          obtain ⟨applied, happl, hlacks⟩ := path_unavailable rest hroot h
            (fun applied happl => hfits applied (.path hstart happl)) hvalue hnone
          exact ⟨applied, .path hstart happl, hlacks⟩
  | access base segs =>
    rw [Expression.isReference, Bool.and_eq_true, Bool.not_eq_true'] at hrefn
    obtain ⟨hbase, hfixed⟩ := hrefn
    rw [resolveExpression] at h
    obtain ⟨start, hstart, h⟩ := Except.of_bind_ok h
    rw [evaluate] at hvalue
    obtain ⟨_, -, hvalue⟩ := hvalue.of_bind
    obtain ⟨origin, horigin, hvalue⟩ := hvalue.of_bind
    cases hjson : origin.value with
    | none =>
      refine (reference_unavailable base hbase hstart
        (fun applied happl => hfits applied (.base happl)) horigin hjson).imp id ?_
      rintro ⟨applied, happl, hlacks⟩
      exact ⟨applied, .base happl, hlacks⟩
    | some json =>
      right
      have hstatic : base.isComputed = false := isComputed_of_isReference base hbase
      obtain ⟨applied, happl, hlacks⟩ := access_unavailable segs hfixed hjson h
        (fun applied happl => hfits applied
          (.access hstart horigin (by rw [hstatic]; exact happl))) hvalue hnone
      exact ⟨applied, .access hstart horigin (by rw [hstatic]; exact happl), hlacks⟩
  | literal | call | not | binary => cases hrefn

end Sound

end Brackets

end Validator

end Antiburn
