/-
The trigger condition of a frozen candidate.

The selector evaluates the condition on the trigger context; preparation
evaluates it again on the frozen context, which can hold captured inventories and
the window root besides.  Both are roots that an accepted condition cannot see:
the compiler refuses `window`, and a condition that reads `global` or `repo`
beyond `repo.root` captures before it is evaluated.
-/
import Antiburn.Paths
import Antiburn.Selector
import Antiburn.Fit

namespace Antiburn

/-! ### Roots of accepted paths -/

def Validator.AdmitsPath (v : Validator) (ctx : ExpressionContext)
    (path : List PathSegment) : Prop :=
  ∃ root rest, path = .property root :: rest ∧ (v.rootShape root ctx).isOk = true

section Roots

variable [Platform] (v : Validator) (ctx : ExpressionContext)

mutual

lemma admitsPath_of_resolveExpression (expression : Expression) {shape : ValueShape}
    (h : v.resolveExpression ctx expression = .ok shape) :
    ∀ path ∈ expression.paths, v.AdmitsPath ctx path := by
  intro path hpath
  cases expression with
  | literal => cases hpath
  | path segs =>
    rw [Expression.paths, List.mem_singleton] at hpath
    subst hpath
    match path with
    | [] => cases h
    | .index _ :: _ => cases h
    | .property root :: rest =>
      simp only [Validator.resolveExpression] at h
      obtain ⟨rootShape, hroot, h⟩ := Except.of_bind_ok h
      exact ⟨root, rest, rfl, by rw [hroot]; rfl⟩
  | access base segs =>
    simp only [Validator.resolveExpression] at h
    obtain ⟨baseShape, hbase, h⟩ := Except.of_bind_ok h
    rw [Expression.paths, List.mem_append] at hpath
    rcases hpath with hpath | hpath
    · exact admitsPath_of_resolveExpression base hbase path hpath
    · exact admitsPath_of_accessShape segs h path hpath
  | call function args =>
    simp only [Validator.resolveExpression] at h
    obtain ⟨_, hargs, h⟩ := Except.of_bind_ok h
    exact admitsPath_of_resolveArguments args hargs path hpath
  | not value =>
    simp only [Validator.resolveExpression] at h
    obtain ⟨_, hvalue, h⟩ := Except.of_bind_ok h
    exact admitsPath_of_resolveExpression value hvalue path hpath
  | binary operator left right =>
    simp only [Validator.resolveExpression] at h
    obtain ⟨_, hleft, h⟩ := Except.of_bind_ok h
    obtain ⟨_, hright, h⟩ := Except.of_bind_ok h
    rw [Expression.paths, List.mem_append] at hpath
    rcases hpath with hpath | hpath
    · exact admitsPath_of_resolveExpression left hleft path hpath
    · exact admitsPath_of_resolveExpression right hright path hpath

lemma admitsPath_of_accessShape (segs : List AccessSegment) {start shape : ValueShape}
    (h : v.accessShape ctx segs start = .ok shape) :
    ∀ path ∈ segmentPaths segs, v.AdmitsPath ctx path := by
  intro path hpath
  cases segs with
  | nil => cases hpath
  | cons seg rest =>
    cases seg with
    | property name | index index =>
      simp only [Validator.accessShape] at h
      obtain ⟨_, -, h⟩ := Except.of_bind_ok h
      exact admitsPath_of_accessShape rest h path hpath
    | dynamic selector =>
      simp only [Validator.accessShape] at h
      obtain ⟨_, hselr, h⟩ := Except.of_bind_ok h
      obtain ⟨_, -, h⟩ := Except.of_bind_ok h
      rw [segmentPaths, List.mem_append] at hpath
      rcases hpath with hpath | hpath
      · exact admitsPath_of_resolveExpression selector hselr path hpath
      · exact admitsPath_of_accessShape rest h path hpath
    | projection =>
      simp only [Validator.accessShape] at h
      obtain ⟨_, -, h⟩ := Except.of_bind_ok h
      obtain ⟨_, hrest, h⟩ := Except.of_bind_ok h
      exact admitsPath_of_accessShape rest hrest path hpath

lemma admitsPath_of_resolveArguments (args : List Expression)
    (h : v.resolveArguments ctx args = .ok ()) :
    ∀ path ∈ argumentPaths args, v.AdmitsPath ctx path := by
  intro path hpath
  cases args with
  | nil => cases hpath
  | cons argument rest =>
    simp only [Validator.resolveArguments] at h
    obtain ⟨_, harg, h⟩ := Except.of_bind_ok h
    rw [argumentPaths, List.mem_append] at hpath
    rcases hpath with hpath | hpath
    · exact admitsPath_of_resolveExpression argument harg path hpath
    · exact admitsPath_of_resolveArguments rest h path hpath

end

end Roots

/-! ### Inventory paths -/

def OutsideInventories (path : List PathSegment) : Prop :=
  ∀ root rest, path = .property root :: rest →
    (root ≠ "global" ∧ root ≠ "repo") ∨ (root = "repo" ∧ ∃ tail, rest = .property "root" :: tail)

variable {root : String}

lemma scopePath_whole {expression : Expression}
    (h : scopePath [] expression = some (root, .whole)) :
    expression = .path [.property root] := by
  cases expression with
  | path path =>
    match path with
    | [] => cases h
    | .index _ :: _ => cases h
    | .property root' :: rest =>
      simp only [scopePath] at h
      split_ifs at h
      simp only [Option.some.injEq, Prod.mk.injEq] at h
      obtain ⟨rfl, hmember⟩ := h
      cases rest with
      | nil => rfl
      | cons seg tail => cases seg <;> cases hmember
  | access base segs =>
    rw [scopePath_access] at h
    cases hbase : scopePath [] base with
    | none => simp [hbase] at h
    | some selected =>
      obtain ⟨root', member⟩ := selected
      simp only [hbase, Option.map_some, Option.some.injEq] at h
      cases member with
      | whole =>
        simp only [Prod.mk.injEq] at h
        obtain ⟨-, hmember⟩ := h
        unfold accessMember at hmember
        split at hmember <;> cases hmember
      | named | unknown => cases h
  | literal | call | not | binary => cases h

variable {root name : String}

lemma scopePath_base {base : Expression} {segs : List AccessSegment}
    (hcanon : (Expression.access base segs).Canonical)
    (h : scopePath [] (.access base segs) = some (root, .named name)) :
    scopePath [] base = some (root, .named name) := by
  rw [scopePath_access] at h
  cases hbase : scopePath [] base with
  | none => simp [hbase] at h
  | some selected =>
    obtain ⟨root', member⟩ := selected
    simp only [hbase, Option.map_some, Option.some.injEq] at h
    cases member with
    | whole =>
      have hpath := scopePath_whole hbase
      subst hpath
      obtain ⟨-, -, -, hhead⟩ := hcanon
      have hstarts := hhead rfl
      simp only [Prod.mk.injEq] at h
      obtain ⟨-, hmember⟩ := h
      unfold accessMember at hmember
      split at hmember
      · cases hstarts
      · cases hstarts
      · cases hmember
    | named | unknown => exact congrArg some h

lemma outside_of_scopePath {path : List PathSegment}
    (h : scopePath [] (.path path) = some (root, .named name)) (hroot : root ≠ "global")
    (hname : name = "root") : OutsideInventories path := by
  rintro root' rest rfl
  simp only [scopePath] at h
  split_ifs at h with hscope
  simp only [Option.some.injEq, Prod.mk.injEq] at h
  obtain ⟨rfl, hmember⟩ := h
  have hrepo : root' = "repo" := by
    by_contra hne
    simp [hroot, hne] at hscope
  cases rest with
  | nil => cases hmember
  | cons seg tail =>
    cases seg with
    | index => cases hmember
    | property =>
      cases hmember
      exact .inr ⟨hrepo, tail, by rw [hname]⟩

mutual

/-- **The syntactic inventory demand covers every path.** -/
lemma outside_of_expressionReads (expression : Expression) (hcanon : expression.Canonical)
    (h : expressionReads [] expression = false) :
    ∀ path ∈ expression.paths, OutsideInventories path := by
  intro path hpath
  cases expression with
  | literal => cases hpath
  | path segs =>
    rw [Expression.paths, List.mem_singleton] at hpath
    subst hpath
    rintro root rest rfl
    simp only [expressionReads] at h
    cases hscope : scopePath [] (.path (.property root :: rest)) with
    | none =>
      simp only [scopePath] at hscope
      split_ifs at hscope with hnone
      simp only [List.contains_nil, Bool.false_or, Bool.not_eq_true', Bool.or_eq_false_iff,
        beq_eq_false_iff_ne] at hnone
      exact .inl hnone
    | some selected =>
      obtain ⟨root', member⟩ := selected
      simp only [hscope, Bool.or_eq_false_iff, beq_eq_false_iff_ne, bne_eq_false_iff_eq] at h
      rw [h.2] at hscope
      exact outside_of_scopePath hscope h.1 rfl root rest rfl
  | access base segs =>
    rw [Expression.paths, List.mem_append] at hpath
    simp only [expressionReads] at h
    cases hscope : scopePath [] (.access base segs) with
    | none =>
      simp only [hscope, Bool.or_eq_false_iff] at h
      rcases hpath with hpath | hpath
      · exact outside_of_expressionReads base hcanon.1 h.1 path hpath
      · exact outside_of_segmentsRead segs hcanon.2.1 h.2 path hpath
    | some selected =>
      obtain ⟨root, member⟩ := selected
      simp only [hscope, Bool.or_eq_false_iff, beq_eq_false_iff_ne, bne_eq_false_iff_eq] at h
      obtain ⟨⟨⟨hkeys, hsegs⟩, hroot⟩, rfl⟩ := h
      rcases hpath with hpath | hpath
      · exact outside_of_accessKeysRead base hcanon.1 (scopePath_base hcanon hscope)
          hroot hkeys path hpath
      · exact outside_of_segmentsRead segs hcanon.2.1 hsegs path hpath
  | call function args => exact outside_of_argumentsRead args hcanon h path hpath
  | not value => exact outside_of_expressionReads value hcanon h path hpath
  | binary operator left right =>
    rw [Expression.paths, List.mem_append] at hpath
    simp only [expressionReads, Bool.or_eq_false_iff] at h
    rcases hpath with hpath | hpath
    · exact outside_of_expressionReads left hcanon.1 h.1 path hpath
    · exact outside_of_expressionReads right hcanon.2 h.2 path hpath

lemma outside_of_accessKeysRead (expression : Expression) (hcanon : expression.Canonical)
    {root : String} (hscope : scopePath [] expression = some (root, .named "root"))
    (hroot : root ≠ "global") (h : accessKeysRead [] expression = false) :
    ∀ path ∈ expression.paths, OutsideInventories path := by
  intro path hpath
  cases expression with
  | path segs =>
    rw [Expression.paths, List.mem_singleton] at hpath
    subst hpath
    exact outside_of_scopePath hscope hroot rfl
  | access base segs =>
    rw [Expression.paths, List.mem_append] at hpath
    simp only [accessKeysRead, Bool.or_eq_false_iff] at h
    rcases hpath with hpath | hpath
    · exact outside_of_accessKeysRead base hcanon.1 (scopePath_base hcanon hscope)
        hroot h.1 path hpath
    · exact outside_of_segmentsRead segs hcanon.2.1 h.2 path hpath
  | literal | call | not | binary => cases hscope

lemma outside_of_segmentsRead (segs : List AccessSegment)
    (hcanon : CanonicalSegments segs) (h : segmentsRead [] segs = false) :
    ∀ path ∈ segmentPaths segs, OutsideInventories path := by
  intro path hpath
  cases segs with
  | nil => cases hpath
  | cons seg rest =>
    cases seg with
    | dynamic selector =>
      rw [segmentPaths, List.mem_append] at hpath
      simp only [segmentsRead, Bool.or_eq_false_iff] at h
      rcases hpath with hpath | hpath
      · exact outside_of_expressionReads selector hcanon.1 h.1 path hpath
      · exact outside_of_segmentsRead rest hcanon.2 h.2 path hpath
    | property | index | projection => exact outside_of_segmentsRead rest hcanon h path hpath

lemma outside_of_argumentsRead (args : List Expression)
    (hcanon : CanonicalArguments args) (h : argumentsRead [] args = false) :
    ∀ path ∈ argumentPaths args, OutsideInventories path := by
  intro path hpath
  cases args with
  | nil => cases hpath
  | cons argument rest =>
    rw [argumentPaths, List.mem_append] at hpath
    simp only [argumentsRead, Bool.or_eq_false_iff] at h
    rcases hpath with hpath | hpath
    · exact outside_of_expressionReads argument hcanon.1 h.1 path hpath
    · exact outside_of_argumentsRead rest hcanon.2 h.2 path hpath

end

/-! ### Paths on changed contexts -/

variable {rest : List PathSegment}

section Contexts

variable [Platform] {ctx context' : Json} {bindings : EvaluationBindings}

omit [Platform] in
lemma pathSteps_congr (rest : List PathSegment) (depth : Nat) {v w : RuntimeValue}
    (h : SameOrMissing v w) :
    Lockstep SameOrMissing (pathSteps rest depth v) (pathSteps rest depth w) := by
  induction rest generalizing depth v w with
  | nil => exact .pure h
  | cons seg rest ih =>
    simp only [pathSteps]
    refine Lockstep.bind_same _ fun _ => ih _ ?_
    rcases h with rfl | ⟨hv, hw⟩
    · exact .refl _
    · simp only [select, hv, hw]
      exact sameOrMissing_unavailable _ _

omit [Platform] in
lemma samePath_of_root (h : ctx.get? root = context'.get? root) :
    SamePath ctx context' bindings (.property root :: rest) := by
  intro depth
  refine pathSteps_congr rest depth (.inl ?_)
  unfold pathRoot
  rw [h]

omit [Platform] in
/-- A root that appears as an object, or changes in other fields, reads the same
below a field that it keeps. -/
lemma samePath_of_field {entries : Object}
    (hroot : context'.get? root = some (.object entries))
    (hold : (∃ old : Object, ctx.get? root = some (.object old) ∧
        old.get? name = entries.get? name) ∨
      (ctx.get? root = none ∧ entries.get? name = none)) :
    SamePath ctx context' bindings (.property root :: .property name :: rest) := by
  intro depth
  simp only [evaluatePath, pathSteps]
  refine Lockstep.bind_same _ fun _ => pathSteps_congr rest _ ?_
  unfold pathRoot
  cases bindings.lookup root with
  | some binding => exact .refl _
  | none =>
    rcases hold with ⟨old, hctx, hname⟩ | ⟨hctx, hname⟩
    · refine .inl ?_
      simp only [hctx, hroot]
      unfold select
      simp only [hname]
    · refine .inr ⟨?_, ?_⟩
      · simp only [hctx, select]
        rfl
      · simp only [hroot, select]
        exact hname

lemma evaluateCondition_congr {cond : Condition} {depth : Nat}
    (hpaths : ∀ expression, cond = .expression expression →
      ∀ path ∈ expression.paths, SamePath ctx context' bindings path)
    (hcomp : requestsComplete ctx = requestsComplete context') :
    Lockstep (fun v w => v = w ∨ (v.value = none ∧ w.value = none))
      (evaluateCondition cond ctx bindings depth)
      (evaluateCondition cond context' bindings depth) := by
  cases cond with
  | boolean value => exact (Lockstep.refl _).mono fun _ _ h => .inl h
  | expression expression =>
    have henforce : ∀ value : EvaluatedValue,
        enforceSelectedMembership value ctx = enforceSelectedMembership value context' := by
      intro value
      have havailable : selectedMembershipIsAvailable value.trace ctx =
          selectedMembershipIsAvailable value.trace context' := by
        unfold selectedMembershipIsAvailable
        rw [hcomp]
      unfold enforceSelectedMembership
      rw [havailable]
    have hmissing : ∀ (value : EvaluatedValue) (ctx : Json), value.value = none →
        (enforceSelectedMembership value ctx).value = none := by
      intro value ctx h
      unfold enforceSelectedMembership
      split_ifs
      · exact h
      · rfl
    have hvalue : Lockstep (fun v w : EvaluatedValue => v = w ∨ (v.value = none ∧ w.value = none))
        (evaluateExpressionWithBudget expression ctx bindings depth)
        (evaluateExpressionWithBudget expression context' bindings depth) := by
      refine (evaluate_congr expression (hpaths expression rfl) depth).bind ?_
      rintro v w (rfl | ⟨hv, hw⟩)
      · exact (Lockstep.refl _).mono fun _ _ h => .inl h
      · simp only [RuntimeValue.finish, hv, hw]
        exact .pure (.inr ⟨rfl, rfl⟩)
    simp only [evaluateCondition]
    refine hvalue.bind ?_
    rintro v w (rfl | ⟨hv, hw⟩)
    · exact .pure (.inl (henforce v))
    · exact .pure (.inr ⟨hmissing _ _ hv, hmissing _ _ hw⟩)

lemma evaluateTriggerCondition_congr {check : CompiledCheck}
    (hpaths : ∀ expression, check.condition = some (.expression expression) →
      ∀ path ∈ expression.paths, SamePath ctx context' [] path)
    (hcomp : requestsComplete ctx = requestsComplete context') :
    evaluateTriggerCondition check ctx = evaluateTriggerCondition check context' := by
  unfold evaluateTriggerCondition
  cases hcond : check.condition with
  | none => rfl
  | some cond =>
    have hlockstep : Lockstep _ (evaluateCondition cond ctx [] 1)
        (evaluateCondition cond context' [] 1) :=
      evaluateCondition_congr (fun expression heq => hpaths expression (by rw [hcond, heq]))
        hcomp
    have houtc := hlockstep.outcomes .initial
    dsimp only
    generalize ((evaluateCondition cond ctx [] 1).run .initial).1 = left at houtc ⊢
    generalize ((evaluateCondition cond context' [] 1).run .initial).1 = right at houtc ⊢
    match left, right, houtc with
    | .ok v, .ok w, .inl h => rw [show v = w from h]
    | .ok ⟨_, _, _⟩, .ok ⟨_, _, _⟩, .inr ⟨hv, hw⟩ =>
      cases hv
      cases hw
      rfl
    | .error e, .error e', h => rw [show e = e' from h]

end Contexts

/-! ### Merged inventories and the window root -/

lemma InventorySnapshot.fields_subset (snapshot : InventorySnapshot) :
    ∀ entry ∈ snapshot.fields, entry.1 ∈ inventoryFields := by
  intro entry h
  unfold fields at h
  simp only [List.mem_append, Option.mem_toList, Option.map_eq_some_iff, List.mem_cons,
    List.not_mem_nil, or_false] at h
  rcases h with (((⟨_, _, rfl⟩ | rfl | rfl) | ⟨_, _, rfl⟩) | rfl | rfl) | ⟨_, _, rfl⟩ <;>
    simp [inventoryFields]

lemma get?_removeAll (names : List String) (entries : Object) {name : String}
    (h : name ∉ names) : (names.foldl Object.remove entries).get? name = entries.get? name := by
  induction names generalizing entries with
  | nil => rfl
  | cons first rest ih =>
    rw [List.mem_cons, not_or] at h
    rw [List.foldl_cons, ih _ h.2, Object.get?_remove, if_neg (Ne.symm h.1)]

lemma mergeScope_frame {ctx merged : Object} {scope : String} {snapshot : InventorySnapshot}
    (h : mergeScope ctx scope snapshot = some merged) :
    (∀ other, other ≠ scope → merged.get? other = ctx.get? other) ∧
      ∃ old new : Object, (ctx.get? scope).getD (.object []) = .object old ∧
        merged.get? scope = some (.object new) ∧
        ∀ name, name ∉ inventoryFields → new.get? name = old.get? name := by
  unfold mergeScope at h
  split at h
  · rename_i root hroot
    injection h with h
    subst h
    refine ⟨fun other hother => Object.get?_insert_of_ne _ _ hother.symm, root, _, hroot,
      Object.get?_insert_self _ _ _, fun name hname => ?_⟩
    have hfields : ∀ entry ∈ snapshot.fields, entry.1 ≠ name :=
      fun entry hentry heq => hname (heq ▸ snapshot.fields_subset entry hentry)
    rw [Object.get?_extend_of_notMem _ _ hfields]
    exact get?_removeAll _ _ hname
  · cases h

section Merged

variable {ctx merged : Json} {inventories : CurrentInventories}

/-- **Merged inventories change nothing outside their fields.** -/
lemma samePath_mergeInto [Platform] (h : inventories.mergeInto ctx = some merged)
    {bindings : EvaluationBindings}
    (hpath : OutsideInventories (.property root :: rest)) :
    SamePath ctx merged bindings (.property root :: rest) := by
  unfold CurrentInventories.mergeInto at h
  split at h
  · rename_i entries
    simp only [Option.bind_eq_bind, Option.bind_eq_some_iff, Option.pure_def,
      Option.some.injEq] at h
    obtain ⟨global, hglobal, repo, hrepo, rfl⟩ := h
    obtain ⟨hglobalFrame, -⟩ := mergeScope_frame hglobal
    obtain ⟨hrepoFrame, old, new, hold, hnew, hfields⟩ := mergeScope_frame hrepo
    rcases hpath root rest rfl with ⟨hg, hr⟩ | ⟨rfl, tail, rfl⟩
    · refine samePath_of_root ?_
      rw [Json.get?_object, Json.get?_object, hrepoFrame root hr, hglobalFrame root hg]
    · refine samePath_of_field hnew ?_
      have hroot := hfields "root" (by decide)
      rw [hglobalFrame "repo" (by decide)] at hold
      rw [Json.get?_object]
      cases hbefore : Object.get? entries "repo" with
      | none =>
        rw [hbefore] at hold
        cases hold
        exact .inr ⟨rfl, hroot⟩
      | some value =>
        rw [hbefore] at hold
        cases hold
        exact .inl ⟨old, rfl, hroot.symm⟩
  · cases h

lemma requestsComplete_mergeInto (h : inventories.mergeInto ctx = some merged) :
    requestsComplete ctx = requestsComplete merged := by
  unfold CurrentInventories.mergeInto at h
  split at h
  · simp only [Option.bind_eq_bind, Option.bind_eq_some_iff, Option.pure_def,
      Option.some.injEq] at h
    obtain ⟨global, hglobal, repo, hrepo, rfl⟩ := h
    unfold requestsComplete
    rw [Json.get?_object, Json.get?_object, (mergeScope_frame hrepo).1 _ (by decide),
      (mergeScope_frame hglobal).1 _ (by decide)]
  · cases h

end Merged

lemma get?_withWindowRoot (check : CompiledCheck) (messages : List Message)
    (ctx : FrozenContext) (h : root ≠ "window") :
    (withWindowRoot check messages ctx).value.get? root = ctx.value.get? root := by
  unfold withWindowRoot
  split
  · rename_i roots _ hroots
    rw [hroots]
    exact Object.get?_insert_of_ne _ _ h.symm
  · rfl

/-! ### Accepted checks -/

section Agreement

variable [Platform] {check : CompiledCheck}

section

variable (haccepted : check.ConditionAccepted)
include haccepted

lemma accepted_root {expression : Expression}
    (hcond : check.condition = some (.expression expression)) {path : List PathSegment}
    (hpath : path ∈ expression.paths) :
    ∃ root rest, path = .property root :: rest ∧ root ≠ "window" := by
  obtain ⟨-, hresolved⟩ := haccepted expression hcond
  cases hshape : (topLevelValidator check.trigger).resolveExpression .topLevel expression with
  | error => simp [hshape, Except.isOk, Except.toBool] at hresolved
  | ok shape =>
    obtain ⟨root, rest, rfl, hroot⟩ := admitsPath_of_resolveExpression _ _ _ hshape path hpath
    refine ⟨root, rest, rfl, ?_⟩
    rintro rfl
    cases hroot

/-- **Inventories that a condition does not demand do not change its outcome.** -/
lemma evaluateTriggerCondition_mergeInto
    (hdemand : check.currentInventoryDemand.condition = false) {ctx merged : Json}
    {inventories : CurrentInventories} (h : inventories.mergeInto ctx = some merged) :
    evaluateTriggerCondition check ctx = evaluateTriggerCondition check merged := by
  refine evaluateTriggerCondition_congr ?_ (requestsComplete_mergeInto h)
  intro expression hcond path hpath
  obtain ⟨⟨source, hparsed⟩, -⟩ := haccepted expression hcond
  have hreads : expressionReads [] expression = false := by
    unfold CompiledCheck.currentInventoryDemand at hdemand
    rw [hcond] at hdemand
    exact hdemand
  have houtside := outside_of_expressionReads expression (canonical_of_parseExpression hparsed)
    hreads path hpath
  obtain ⟨root, rest, rfl, -⟩ := accepted_root haccepted hcond hpath
  exact samePath_mergeInto h houtside

/-- **The window root is invisible to the condition.** -/
lemma evaluateTriggerCondition_withWindowRoot (messages : List Message) (ctx : FrozenContext) :
    evaluateTriggerCondition check ctx.value =
      evaluateTriggerCondition check (withWindowRoot check messages ctx).value := by
  refine evaluateTriggerCondition_congr ?_ ?_
  · intro expression hcond path hpath
    obtain ⟨root, rest, rfl, hroot⟩ := accepted_root haccepted hcond hpath
    exact samePath_of_root (get?_withWindowRoot check messages ctx hroot).symm
  · unfold requestsComplete
    rw [get?_withWindowRoot check messages ctx (by decide)]

end

/-- `local_condition_failure`: the condition on the frozen context, before actions. -/
def localConditionFailure (compiled : CompiledCheck) (candidate : FrozenCandidate) :
    Option PreparationFailure :=
  match evaluateTriggerCondition compiled candidate.context.value with
  | .matched => none
  | .false => some { code := .conditionFalse, detail := "condition was false" }
  | .unavailable =>
    some
      { code := .inputUnavailable
        detail := "Top-level condition depends on unavailable evidence." }
  | .failed detail => some { code := .invalidInput, detail }

variable {ε : Type} {act : EffectiveActivation} {obs : Observation}
  {capture : Capture ε}

lemma CandidateContext.matched (haccepted : act.compiled.ConditionAccepted)
    {coverageComplete : Bool} {ctx : FrozenContext}
    (h : CandidateContext act obs coverageComplete capture ctx) :
    evaluateTriggerCondition act.compiled ctx.value = .matched := by
  obtain ⟨base, conditioned, -, -, hmatched, hcapt⟩ := h
  unfold captureForCandidate at hcapt
  split_ifs at hcapt with hdemand
  · -- captured after the condition, which demands no inventories
    simp only [Bool.and_eq_true, Bool.not_eq_true'] at hdemand
    unfold captureInto at hcapt
    split at hcapt
    · cases hcapt
    · injection hcapt with hcapt
      rw [← hcapt]
      exact hmatched
    · split at hcapt
      · rename_i merged hmerged
        injection hcapt with hcapt
        subst hcapt
        rw [← hmatched]
        exact (evaluateTriggerCondition_mergeInto haccepted hdemand.2 hmerged).symm
      · cases hcapt
  · injection hcapt with hcapt
    rw [← hcapt]
    exact hmatched

lemma SelectionState.ApplyCase.matched (haccepted : act.compiled.ConditionAccepted)
    {s t : SelectionState} {cand : FrozenCandidate}
    (h : SelectionState.ApplyCase s act obs capture (.candidate cand) t) :
    evaluateTriggerCondition act.compiled cand.context.value = .matched := by
  cases h with
  | rejected hupdated hcand hstate => cases hcand
  | event hkind hfilters hctx => exact hctx.matched haccepted
  | window hkind hctx =>
    show evaluateTriggerCondition _ (withWindowRoot _ _ _).value = _
    rw [← evaluateTriggerCondition_withWindowRoot haccepted]
    exact hctx.matched haccepted

/-- **Selection and preparation agree on the trigger condition**: it still
matches on the frozen context of every candidate, and inventories that it does
not demand never change its outcome. -/
theorem condition_agreement (act : EffectiveActivation)
    (haccepted : act.compiled.ConditionAccepted) :
    (∀ (ε : Type) (s t : SelectionState) (identity : String) (revision : Nat)
        (obs : Observation) (capture : Capture ε) (candidate : FrozenCandidate),
      s.applyPublishedWithInventories act identity revision obs capture =
          .ok (.candidate candidate, t) →
        evaluateTriggerCondition act.compiled candidate.context.value = .matched ∧
          localConditionFailure act.compiled candidate = none) ∧
      (act.compiled.currentInventoryDemand.condition = false →
        ∀ (inventories : CurrentInventories) (ctx merged : Json),
          inventories.mergeInto ctx = some merged →
            evaluateTriggerCondition act.compiled merged =
              evaluateTriggerCondition act.compiled ctx) := by
  refine ⟨?_, fun hdemand inventories ctx merged h =>
    (evaluateTriggerCondition_mergeInto haccepted hdemand h).symm⟩
  intro ε s t identity revision obs capture candidate h
  have hmatched : evaluateTriggerCondition act.compiled candidate.context.value =
      .matched := by
    have hcase := SelectionState.applyPublished_cases h
    generalize s.admission ⟨obs.branch, identity⟩ revision obs.version = admission
      at hcase
    cases hcase with
    | first hterminal hhistorical hprevious happly => exact happly.matched haccepted
    | correction hprevious hseen hcorrection =>
      cases hcorrection with
      | excluded hcandidate => cases hcandidate
  refine ⟨hmatched, ?_⟩
  unfold localConditionFailure
  rw [hmatched]

end Agreement

/-- Selects every user message of a session whose repository root is known. -/
def repoRootActivation : EffectiveActivation :=
  let act := userMessageActivation 1 Nat.one_pos one_le_MAX_WINDOW_SIZE
  { act with
    compiled :=
      { act.compiled with
        condition := some (.expression (.path [.property "repo", .property "root"])) } }

def repoRootObservation : Observation :=
  { mainObservation (userMessage "x") 1 with
    context := ⟨.object [("repo", .object [("root", .string "/work")])], []⟩ }

def parsedPath (segments : List PathSegment) : Except ExpressionError Expression → Bool
  | .ok (.path parsed) => decide (parsed = segments)
  | _ => false

lemma eq_of_parsedPath {segs : List PathSegment} {result : Except ExpressionError Expression}
    (h : parsedPath segs result = true) : result = .ok (.path segs) := by
  unfold parsedPath at h
  split at h
  · rw [of_decide_eq_true h]
  · cases h

def selectsCandidate {ε : Type} : Except (ApplyFault ε) (SelectionOutcome × SelectionState) → Bool
  | .ok (.candidate _, _) => true
  | _ => false

lemma exists_of_selectsCandidate {ε : Type}
    {result : Except (ApplyFault ε) (SelectionOutcome × SelectionState)}
    (h : selectsCandidate result = true) : ∃ cand t, result = .ok (.candidate cand, t) := by
  unfold selectsCandidate at h
  split at h
  · exact ⟨_, _, rfl⟩
  · cases h

/-- A captured repository inventory leaves the condition on the root matched. -/
theorem condition_agreement_repoRoot :
    ∃ candidate t,
      @SelectionState.applyPublishedWithInventories asciiPlatform Empty {} repoRootActivation "x" 1
          repoRootObservation (.ok (some {})) = .ok (.candidate candidate, t) ∧
        @localConditionFailure asciiPlatform repoRootActivation.compiled candidate = none := by
  have haccepted : @CompiledCheck.ConditionAccepted asciiPlatform repoRootActivation.compiled := by
    intro expression h
    injection h with h
    injection h with h
    subst h
    exact ⟨⟨"repo.root", eq_of_parsedPath (by decide +kernel)⟩, by decide⟩
  have hselected : selectsCandidate (@SelectionState.applyPublishedWithInventories asciiPlatform
      Empty {} repoRootActivation "x" 1 repoRootObservation (.ok (some {}))) = true := by
    decide
  obtain ⟨candidate, t, h⟩ := exists_of_selectsCandidate hselected
  exact ⟨candidate, t, h,
    ((@condition_agreement asciiPlatform repoRootActivation haccepted).1 _ _ _ _ _ _ _ _ h).2⟩

end Antiburn
