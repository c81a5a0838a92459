/-
The round trip of saved results.

A valid assessment is written, decoded strictly within the result limits, read,
checked and bound to the same declarations, and is the same assessment.  What
binds at all is valid, so re-encoding it returns it again.
-/
import Antiburn.SavedBinding

namespace Antiburn

/-! ### Documents of results -/

section Assessments

variable [Platform] {printed : Number → Prop} {reread : Number → Number}
  {readFloat : Number → Platform.F64}

lemma floatJson_distinct (x : Platform.F64) : (floatJson x).Distinct := by
  unfold floatJson
  cases Platform.f64Number x <;> exact trivial

lemma floatJson_numbers (h : SavesNumbers printed reread readFloat) {x : Platform.F64}
    (hx : Platform.isFinite x = true) : (floatJson x).Numbers printed := by
  obtain ⟨number, hnumber, hprin, -⟩ := h.floats x hx
  rw [floatJson, hnumber]
  exact hprin

lemma QuestionResult.forall_fields {P : Json → Prop} (result : QuestionResult)
    (hstring : ∀ text, P (.string text)) (hfloat : ∀ x ∈ result.floats, P (floatJson x))
    (harray : ∀ items : List Json, (∀ item ∈ items, P item) → P (.array items))
    (hobject : ∀ entries : List (String × Json), (entries.map Prod.fst).Nodup →
      (∀ entry ∈ entries, P entry.2) → P (.object entries)) : P result.json := by
  have hdetail : ∀ {α : Type} {name : String} {json : α → Json} {value : Option α},
      (∀ a, value = some a → P (json a)) → ∀ entry ∈ optionalField name json value, P entry.2 := by
    intro α name json value hvalue entry hentry
    cases value with
    | none => cases hentry
    | some a =>
      obtain rfl := List.mem_singleton.mp hentry
      exact hvalue a rfl
  cases result with
  | choice result =>
    obtain ⟨output, probs, confidence⟩ := result
    let labelled := fun map : Std.ExtTreeMap String Platform.F64 =>
      Json.object (map.toList.map fun entry => (entry.1, floatJson entry.2))
    obtain ⟨hkeys, -, -⟩ := @detailed_fields _ id _ (.string output) labelled probs confidence
    refine hobject _ hkeys fun entry hentry => ?_
    rcases List.mem_append.mp hentry with hentry | hentry
    · rcases List.mem_append.mp hentry with hentry | hentry
      · rcases List.mem_cons.mp hentry with rfl | hentry
        · exact hstring _
        · obtain rfl := List.mem_singleton.mp hentry
          exact hstring _
      · refine hdetail (fun map hmap => ?_) entry hentry
        subst hmap
        refine hobject _ ?_ fun pair hpair => ?_
        · have hnodup := map.nodup_keys
          rw [← Std.ExtTreeMap.map_fst_toList_eq_keys] at hnodup
          rw [List.map_map]
          exact hnodup
        · obtain ⟨original, horig, rfl⟩ := List.mem_map.mp hpair
          exact hfloat _ (List.mem_append_left _ (List.mem_map_of_mem horig))
    · refine hdetail (fun x hx => ?_) entry hentry
      cases hx
      exact hfloat _ (List.mem_append_right _ List.mem_cons_self)
  | score result =>
    obtain ⟨output, probs, confidence⟩ := result
    let listed := fun values : List Platform.F64 => Json.array (values.map floatJson)
    obtain ⟨hkeys, -, -⟩ := @detailed_fields _ id _ (floatJson output) listed probs confidence
    refine hobject _ hkeys fun entry hentry => ?_
    rcases List.mem_append.mp hentry with hentry | hentry
    · rcases List.mem_append.mp hentry with hentry | hentry
      · rcases List.mem_cons.mp hentry with rfl | hentry
        · exact hstring _
        · obtain rfl := List.mem_singleton.mp hentry
          exact hfloat _ List.mem_cons_self
      · refine hdetail (fun values hvalues => ?_) entry hentry
        cases hvalues
        refine harray _ fun item hitem => ?_
        obtain ⟨x, hx, rfl⟩ := List.mem_map.mp hitem
        exact hfloat x (List.mem_cons_of_mem _ (List.mem_append_left _ hx))
    · refine hdetail (fun x hx => ?_) entry hentry
      cases hx
      exact hfloat _ (List.mem_cons_of_mem _ (List.mem_append_right _ List.mem_cons_self))
  | noul result =>
    refine hobject _ (by simp) fun entry hentry => ?_
    rcases List.mem_cons.mp hentry with rfl | hentry
    · exact hstring _
    · obtain rfl := List.mem_singleton.mp hentry
      exact hfloat _ List.mem_cons_self

lemma EvaluatedAssessment.forall_json {P : Json → Prop} (results : EvaluatedAssessment)
    (hstring : ∀ text, P (.string text))
    (hcount : ∀ n, n = results.version ∨ n = results.attempts ∨
      (∃ result ∈ results.decisions, n = result.attempts) → P (.number (.ofNat n)))
    (hfloat : ∀ result ∈ results.decisions, ∀ answer ∈ result.answers,
      ∀ x ∈ answer.result.floats, P (floatJson x))
    (harray : ∀ items : List Json, (∀ item ∈ items, P item) → P (.array items))
    (hobject : ∀ entries : List (String × Json), (entries.map Prod.fst).Nodup →
      (∀ entry ∈ entries, P entry.2) → P (.object entries)) : P results.json := by
  refine hobject _ (by simp) ?_
  simp only [List.forall_mem_cons, List.not_mem_nil, false_imp_iff, implies_true, and_true]
  refine ⟨hcount _ (.inl rfl), harray _ fun item hitem => ?_, hcount _ (.inr (.inl rfl))⟩
  obtain ⟨result, hresult, rfl⟩ := List.mem_map.mp hitem
  refine hobject _ (by simp) ?_
  simp only [List.forall_mem_cons, List.not_mem_nil, false_imp_iff, implies_true, and_true]
  refine ⟨hstring _, harray _ fun item hitem => ?_, hcount _ (.inr (.inr ⟨result, hresult, rfl⟩))⟩
  obtain ⟨answer, hanswer, rfl⟩ := List.mem_map.mp hitem
  refine hobject _ (by simp) ?_
  simp only [List.forall_mem_cons, List.not_mem_nil, false_imp_iff, implies_true, and_true]
  exact ⟨hstring _, answer.result.forall_fields hstring (hfloat result hresult answer hanswer)
    harray hobject⟩

/-! ### Valid assessments -/

structure EvaluatedAssessment.Valid (results : EvaluatedAssessment)
    (declarations : List DecisionBlock) (requirements : List QuestionRequirements) : Prop where
  declared : validateRequirements declarations requirements = .ok ()
  version : results.version = RESULT_VERSION
  decisions : List.Forall₂ (fun (result : DecisionResult) declaration =>
    result.validateForDeclaration declaration requirements = .ok ()) results.decisions declarations
  attempts : results.attempts = (results.decisions.map DecisionResult.attempts).sum
  fits : FitsResultLimits results.decisions results.attempts

section Valid

variable {results : EvaluatedAssessment} {declarations : List DecisionBlock}
  {requirements : List QuestionRequirements}

lemma attempts_of_forall₂ {decisions : List DecisionResult}
    (h : List.Forall₂ (fun (result : DecisionResult) decl =>
      result.validateForDeclaration decl requirements = .ok ()) decisions declarations) :
    ∀ result ∈ decisions, result.attempts ≤ 2 := by
  intro result hresult
  obtain ⟨hlen, hvalid⟩ := List.forall₂_iff_get.mp h
  obtain ⟨i, hi, rfl⟩ := List.getElem_of_mem hresult
  have htries := (DecisionResult.of_validateForDeclaration (hvalid i hi (hlen ▸ hi))).2
  change decisions[i].attempts = 1 ∨ decisions[i].attempts = 2 at htries
  omega

lemma EvaluatedAssessment.valid_of_validate
    (h : results.validateForDeclarations declarations requirements = .ok ()) :
    results.Valid declarations requirements := by
  obtain ⟨_, hreqs, h⟩ := Except.of_bind_ok h
  obtain ⟨hver, h⟩ := Except.of_refuse_ok h
  obtain ⟨hlen, h⟩ := Except.of_refuse_ok h
  obtain ⟨_, hdecs, h⟩ := Except.of_bind_ok h
  obtain ⟨total, htotal, h⟩ := Except.of_bind_ok h
  obtain ⟨htries, hmsr⟩ := Except.of_refuse_ok h
  rw [not_not] at hver hlen htries
  have hall : List.Forall₂ (fun (result : DecisionResult) decl =>
      result.validateForDeclaration decl requirements = .ok ())
      results.decisions declarations := by
    refine List.forall₂_iff_zip.mpr ⟨hlen, fun {result decl} hmem => ?_⟩
    exact Except.forM_ok_iff.mp hdecs (result, decl) hmem
  have hfits : FitsResultLimits results.decisions results.attempts := by
    refine (measureJson_resultDocument _ _).mp ?_
    rw [← Except.discard_ok_iff.mp hmsr, orSizeError, Except.isOk_mapError]
  have hsum := hfits.sum_lt (attempts_of_forall₂ hall)
  rw [totalAttempts_eq _ (by omega), Except.ok.injEq] at htotal
  exact ⟨orResultError_ok hreqs, hver, hall, htries.trans htotal.symm, hfits⟩

lemma EvaluatedAssessment.Valid.new_eq (h : results.Valid declarations requirements) :
    EvaluatedAssessment.new declarations requirements results.decisions = .ok results := by
  have hfits := h.fits
  rw [h.attempts] at hfits
  rw [EvaluatedAssessment.new_eq h.declared h.decisions hfits, ← h.version, ← h.attempts]

omit [Platform] in
lemma declaredIndex_injective {names : List String}
    (hnames : names = declarations.map DecisionBlock.name) {a b : String} (ha : a ∈ names)
    (hb : b ∈ names) (h : declaredIndex declarations a = declaredIndex declarations b) : a = b := by
  have hdecl : ∀ name ∈ names, ∃ hi : declaredIndex declarations name < declarations.length,
      (declarations[declaredIndex declarations name]).name = name := by
    intro name hname
    rw [hnames] at hname
    obtain ⟨decl, hmem, rfl⟩ := List.mem_map.mp hname
    have hfound : declaredIndex declarations decl.name < declarations.length :=
      List.findIdx_lt_length_of_exists ⟨decl, hmem, beq_iff_eq.mpr rfl⟩
    have hhere := @List.findIdx_getElem _ _ _ hfound
    exact ⟨hfound, beq_iff_eq.mp hhere⟩
  obtain ⟨_, hthere⟩ := hdecl a ha
  obtain ⟨_, hthere'⟩ := hdecl b hb
  rw [← hthere, ← hthere']
  simp only [h]

/-- **The constructor makes valid assessments**, in whatever order it is given the results. -/
lemma EvaluatedAssessment.valid_of_new {decisions : List DecisionResult}
    (h : EvaluatedAssessment.new declarations requirements decisions = .ok results) :
    results.Valid declarations requirements := by
  obtain ⟨_, hreqs, h⟩ := Except.of_bind_ok h
  obtain ⟨hlen, h⟩ := Except.of_refuse_ok h
  obtain ⟨_, hchecks, h⟩ := Except.of_bind_ok h
  obtain ⟨total, htotal, h⟩ := Except.of_bind_ok h
  obtain ⟨_, hmsr, h⟩ := Except.of_bind_ok h
  rw [not_not] at hlen
  obtain ⟨hdecl, hunique, -⟩ := forUnique_ok_iff.mp hchecks
  have hvalid : ∀ result ∈ decisions, ∃ decl ∈ declarations,
      result.validateForDeclaration decl requirements = .ok () := by
    intro result hresult
    have hcheck := (hdecl result hresult).2
    unfold validateDeclared at hcheck
    split at hcheck
    · cases hcheck
    · rename_i decl hfind
      exact ⟨decl, List.mem_of_find?_eq_some hfind, hcheck⟩
  obtain ⟨hnames, -⟩ := validateDeclarations_of_validateRequirements (orResultError_ok hreqs)
  have hperm := List.mergeSort_perm decisions fun a b =>
    decide (declaredIndex declarations a.decision ≤ declaredIndex declarations b.decision)
  -- the sorted results have the declared names in their order
  have hsorted : (decisions.mergeSort fun a b =>
      declaredIndex declarations a.decision ≤ declaredIndex declarations b.decision).map
        DecisionResult.decision = declarations.map DecisionBlock.name := by
    have hsame : ((decisions.mergeSort fun a b => decide (declaredIndex declarations a.decision ≤
        declaredIndex declarations b.decision)).map DecisionResult.decision).Perm
        (declarations.map DecisionBlock.name) := by
      refine (hperm.map _).trans ((List.subperm_of_subset hunique ?_).perm_of_length_le ?_)
      · intro name hname
        obtain ⟨result, hresult, rfl⟩ := List.mem_map.mp hname
        obtain ⟨decl, hmem, hok⟩ := hvalid result hresult
        rw [(DecisionResult.of_validateForDeclaration hok).1]
        exact List.mem_map_of_mem hmem
      · rw [List.length_map, List.length_map, hlen]
    refine @List.Perm.eq_of_pairwise _
      (fun a b => declaredIndex declarations a ≤ declaredIndex declarations b) _ _ ?_ ?_ ?_ hsame
    · intro a b ha hb hle hge
      exact declaredIndex_injective rfl (hsame.mem_iff.mp ha) hb (hle.antisymm hge)
    · rw [List.pairwise_map]
      refine (List.pairwise_mergeSort ?_ ?_ decisions).imp fun hle => of_decide_eq_true hle
      · intro a b c hab hbc
        rw [decide_eq_true_eq] at hab hbc ⊢
        exact hab.trans hbc
      · intro a b
        rw [Bool.or_eq_true, decide_eq_true_eq, decide_eq_true_eq]
        exact Nat.le_total _ _
    · rw [List.pairwise_map, List.pairwise_iff_getElem]
      intro i j hi hj hij
      rw [declaredIndex_eq hnames, declaredIndex_eq hnames]
      exact hij.le
  have hall : List.Forall₂ (fun (result : DecisionResult) decl =>
      result.validateForDeclaration decl requirements = .ok ())
      (decisions.mergeSort fun a b =>
        declaredIndex declarations a.decision ≤ declaredIndex declarations b.decision)
      declarations := by
    have hplaces : ∀ (ordered : List DecisionResult) (declared : List DecisionBlock),
        ordered.map DecisionResult.decision = declared.map DecisionBlock.name →
        (∀ result ∈ ordered, result ∈ decisions) → (∀ block ∈ declared, block ∈ declarations) →
        List.Forall₂ (fun (result : DecisionResult) decl =>
          result.validateForDeclaration decl requirements = .ok ()) ordered declared := by
      intro ordered
      induction ordered with
      | nil =>
        intro declared hmap _ _
        cases declared with
        | nil => exact .nil
        | cons _ _ => cases hmap
      | cons result rest ih =>
        intro declared hmap hin hin'
        cases declared with
        | nil => cases hmap
        | cons block blocks =>
          rw [List.map_cons, List.map_cons, List.cons.injEq] at hmap
          refine .cons ?_ (ih blocks hmap.2 (fun r hr => hin r (List.mem_cons_of_mem _ hr))
            fun b hb => hin' b (List.mem_cons_of_mem _ hb))
          have hcheck := (hdecl result (hin result List.mem_cons_self)).2
          unfold validateDeclared at hcheck
          rw [hmap.1, find?_declaration hnames (hin' block List.mem_cons_self)] at hcheck
          exact hcheck
    exact hplaces _ _ hsorted (fun result hresult => hperm.mem_iff.mp hresult) fun _ hb => hb
  have hfits : FitsResultLimits (decisions.mergeSort fun a b =>
      declaredIndex declarations a.decision ≤ declaredIndex declarations b.decision) total := by
    refine (measureJson_resultDocument _ _).mp ?_
    rw [← Except.discard_ok_iff.mp hmsr, orSizeError, Except.isOk_mapError]
  have hsum := hfits.sum_lt (attempts_of_forall₂ hall)
  have hsumPerm : ((decisions.mergeSort fun a b => decide (declaredIndex declarations a.decision ≤
      declaredIndex declarations b.decision)).map DecisionResult.attempts).sum =
      (decisions.map DecisionResult.attempts).sum := (hperm.map _).sum_eq
  rw [hsumPerm] at hsum
  rw [totalAttempts_eq _ (by omega), Except.ok.injEq] at htotal
  cases h
  exact ⟨orResultError_ok hreqs, rfl, hall, htotal.symm.trans hsumPerm.symm, hfits⟩

/-! ### Decoding and binding -/

lemma EvaluatedAssessment.Valid.exists_declaration (h : results.Valid declarations requirements) :
    ∀ result ∈ results.decisions, ∃ decl ∈ declarations,
      result.validateForDeclaration decl requirements = .ok () := by
  intro result hresult
  obtain ⟨hlen, hall⟩ := List.forall₂_iff_get.mp h.decisions
  obtain ⟨i, hi, rfl⟩ := List.getElem_of_mem hresult
  exact ⟨declarations[i], List.getElem_mem _, hall i hi (hlen ▸ hi)⟩

lemma EvaluatedAssessment.Valid.names (h : results.Valid declarations requirements) :
    results.decisions.map DecisionResult.decision = declarations.map DecisionBlock.name := by
  obtain ⟨hlen, hall⟩ := List.forall₂_iff_get.mp h.decisions
  refine List.ext_getElem (by simpa using hlen) fun i hi hi' => ?_
  rw [List.getElem_map, List.getElem_map]
  exact (DecisionResult.of_validateForDeclaration
    (hall i (by simpa using hi) (by simpa using hi'))).1

lemma foldlM_checkDecision {decisions : List SavedDecision} {seen : List String} {total : Nat}
    (hnames : (decisions.map SavedDecision.decision).Nodup)
    (hseen : ∀ decision ∈ decisions, decision.decision ∉ seen)
    (hshape : ∀ decision ∈ decisions, decision.validateShape = .ok ())
    (htotal : total + (decisions.map SavedDecision.attempts).sum < 2 ^ 64) :
    ∃ names, decisions.foldlM checkDecision (seen, total) =
      .ok (names, total + (decisions.map SavedDecision.attempts).sum) := by
  induction decisions generalizing seen total with
  | nil => exact ⟨seen, rfl⟩
  | cons decision rest ih =>
    rw [List.map_cons, List.nodup_cons] at hnames
    rw [List.map_cons, List.sum_cons, ← Nat.add_assoc] at htotal ⊢
    have hstep : checkDecision (seen, total) decision =
        .ok (decision.decision :: seen, total + decision.attempts) := by
      unfold checkDecision
      refine Except.refuse_ok (hseen decision List.mem_cons_self) ?_
      show (decision.validateShape >>= _) = _
      rw [hshape decision List.mem_cons_self]
      show (if 2 ^ 64 ≤ total + decision.attempts then _ else _) = _
      rw [if_neg (by omega)]
      rfl
    obtain ⟨names, hrest⟩ := ih hnames.2
      (fun other hother hmem => by
        rcases List.mem_cons.mp hmem with heq | hmem
        · exact hnames.1 (List.mem_map.mpr ⟨other, hother, heq⟩)
        · exact hseen other (List.mem_cons_of_mem _ hother) hmem)
      (fun other hother => hshape other (List.mem_cons_of_mem _ hother)) htotal
    exact ⟨names, by rw [List.foldlM_cons, hstep]; exact hrest⟩

/-- **A valid assessment decodes** to the record of it. -/
lemma EvaluatedAssessment.Valid.decodeResults_eq {document : ByteArray → JsonDocument}
    (hreads : ReadsDocuments document printed reread) (hsaves : SavesNumbers printed reread readFloat)
    (refusal : Json → String) (h : results.Valid declarations requirements) :
    decodeResults document readFloat refusal results.json.render.toByteArray = .ok ⟨results.saved⟩ := by
  have hdoc : results.json = resultDocument results.decisions results.attempts := by
    rw [EvaluatedAssessment.json, h.version]
    rfl
  have hress := h.exists_declaration
  have htries := attempts_of_forall₂ h.decisions
  have hsum : results.attempts < 2 ^ 32 := h.attempts ▸ h.fits.sum_lt htries
  have hprint : ∀ result ∈ results.decisions, result.Printable := by
    intro result hresult
    obtain ⟨_, -, hvalid⟩ := hress result hresult
    exact (DecisionResult.saved_of_validate hvalid).2.1
  have hfinite : ∀ result ∈ results.decisions, ∀ answer ∈ result.answers,
      ∀ x ∈ answer.result.floats, Platform.isFinite x = true :=
    fun result hresult => (hprint result hresult).1
  have hnums : results.json.Numbers printed := by
    refine results.forall_json (fun _ => trivial) (fun n hn => ?_)
      (fun result hresult answer hanswer x hx =>
        floatJson_numbers hsaves (hfinite result hresult answer hanswer x hx))
      (fun items => Json.numbersItems_iff.mpr) (fun entries _ => Json.numbersEntries_iff.mpr)
    refine (hsaves.counts n ?_).1
    rcases hn with rfl | rfl | ⟨result, hresult, rfl⟩
    · rw [h.version]
      decide
    · omega
    · have := htries result hresult
      omega
  have hdist : results.json.Distinct :=
    results.forall_json (fun _ => trivial) (fun _ _ => trivial)
      (fun _ _ _ _ x _ => floatJson_distinct x)
      (fun items => Json.distinctItems_iff.mpr)
      (fun entries hkeys hall => ⟨hkeys, Json.distinctEntries_iff.mpr hall⟩)
  have hsize : results.json.render.utf8ByteSize ≤ RESULT_LIMITS.maxBytes := by
    rw [← Json.byteSize_eq_render, hdoc]
    exact h.fits.bytes
  have hcount : ∃ counter, (results.json.visits 1).foldlM (NodeCounter.charge RESULT_LIMITS) {} =
      .ok counter := by
    rw [hdoc]
    refine Except.isOk_iff.mp ((foldlM_charge_isOk_iff _ _ _ (Nat.zero_le _)).mpr
      ⟨h.fits.depth, ?_⟩)
    rw [Nat.zero_add]
    exact h.fits.nodes
  have hdecode : decodeStrictJson document results.json.render.toByteArray RESULT_LIMITS =
      .ok (results.json.decoded reread) :=
    (decode_render_eq_ok hreads hnums (by decide)).mpr ⟨hsize, hdist, hcount, rfl⟩
  have hread := SavedAssessment.fromValue_decoded hsaves
    (h.version ▸ (by decide : RESULT_VERSION < 2 ^ 8)) (by omega) hprint
  have hnames : (results.saved.decisions.map SavedDecision.decision).Nodup := by
    have hsame : results.saved.decisions.map SavedDecision.decision =
        declarations.map DecisionBlock.name := by
      rw [← h.names]
      exact List.map_map
    rw [hsame]
    exact (validateDeclarations_of_validateRequirements h.declared).1
  have hshape : ∀ decision ∈ results.saved.decisions, decision.validateShape = .ok () := by
    intro decision hdec
    obtain ⟨result, hresult, rfl⟩ := List.mem_map.mp hdec
    obtain ⟨_, -, hvalid⟩ := hress result hresult
    exact (DecisionResult.saved_of_validate hvalid).1
  have htotal : (results.saved.decisions.map SavedDecision.attempts).sum = results.attempts := by
    rw [h.attempts]
    exact congrArg List.sum List.map_map
  obtain ⟨names, hfold⟩ := @foldlM_checkDecision _ results.saved.decisions [] 0 hnames
    (fun _ _ hmem => by cases hmem) hshape (by omega)
  unfold decodeResults
  rw [hdecode, show orSizeError (Except.ok (results.json.decoded reread)) =
    pure (results.json.decoded reread) from rfl, pure_bind, hread]
  refine Except.refuse_ok (not_not.mpr h.version) ?_
  show (results.saved.decisions.foldlM checkDecision ([], 0) >>= _) = _
  rw [hfold, Nat.zero_add, htotal]
  exact if_neg (not_not.mpr rfl)

/-- **The record of a valid assessment binds** back to the assessment. -/
lemma EvaluatedAssessment.Valid.bind_eq (h : results.Valid declarations requirements) :
    (DecodedAssessment.mk results.saved).validateForDeclarations declarations requirements =
      .ok results := by
  obtain ⟨hnames, -⟩ := validateDeclarations_of_validateRequirements h.declared
  have hlen : results.saved.decisions.length = declarations.length :=
    (List.length_map _).trans h.decisions.length_eq
  have hdecs : results.saved.decisions.mapM
      (SavedDecision.bindDeclared declarations requirements) = .ok results.decisions := by
    refine Except.mapM_map_ok fun result hresult => ?_
    obtain ⟨decl, hmem, hvalid⟩ := h.exists_declaration result hresult
    have hname : result.saved.decision = decl.name :=
      (DecisionResult.of_validateForDeclaration hvalid).1
    unfold SavedDecision.bindDeclared
    rw [hname, find?_declaration hnames hmem]
    exact (DecisionResult.saved_of_validate hvalid).2.2
  unfold DecodedAssessment.validateForDeclarations
  rw [h.declared]
  show (if results.saved.decisions.length ≠ declarations.length then _ else _) = _
  rw [if_neg (not_not.mpr hlen)]
  show (results.saved.decisions.mapM _ >>= _) = _
  rw [hdecs]
  show (EvaluatedAssessment.new declarations requirements results.decisions >>= _) = _
  rw [h.new_eq]
  exact if_neg (not_not.mpr rfl)

lemma DecodedAssessment.valid_of_bind {decoded : DecodedAssessment}
    (h : decoded.validateForDeclarations declarations requirements = .ok results) :
    results.Valid declarations requirements := by
  obtain ⟨_, -, h⟩ := Except.of_bind_ok h
  obtain ⟨-, h⟩ := Except.of_refuse_ok h
  obtain ⟨_, -, h⟩ := Except.of_bind_ok h
  obtain ⟨made, hnew, h⟩ := Except.of_bind_ok h
  obtain ⟨-, h⟩ := Except.of_refuse_ok h
  cases h
  exact EvaluatedAssessment.valid_of_new hnew

end Valid

/-- **Saved results decode to themselves.**  A valid assessment is written, decoded and bound to
the same assessment; what is decoded from any bytes and binds is one that is, when it is written
again. -/
theorem saved_results_decode_to_themselves {document : ByteArray → JsonDocument}
    (hreads : ReadsDocuments document printed reread) (hsaves : SavesNumbers printed reread readFloat)
    (refusal : Json → String) (declarations : List DecisionBlock)
    (requirements : List QuestionRequirements) :
    (∀ assessment : EvaluatedAssessment,
      assessment.validateForDeclarations declarations requirements = .ok () →
      ∃ decoded,
        decodeResults document readFloat refusal assessment.json.render.toByteArray = .ok decoded ∧
        decoded.validateForDeclarations declarations requirements = .ok assessment) ∧
    ∀ (bytes : ByteArray) (decoded : DecodedAssessment) (assessment : EvaluatedAssessment),
      decodeResults document readFloat refusal bytes = .ok decoded →
      decoded.validateForDeclarations declarations requirements = .ok assessment →
      ∃ again,
        decodeResults document readFloat refusal assessment.json.render.toByteArray = .ok again ∧
        again.validateForDeclarations declarations requirements = .ok assessment := by
  refine ⟨fun assessment hassessment => ?_, fun bytes decoded assessment _ hbind => ?_⟩
  · have hvalid := EvaluatedAssessment.valid_of_validate hassessment
    exact ⟨_, hvalid.decodeResults_eq hreads hsaves refusal, hvalid.bind_eq⟩
  · have hvalid := DecodedAssessment.valid_of_bind hbind
    exact ⟨_, hvalid.decodeResults_eq hreads hsaves refusal, hvalid.bind_eq⟩

end Assessments

/-! ### Whole floats -/

/-- A machine integer, or one that ends in `.0`. -/
def wholeText (text : String) : Option Number :=
  match text.toList.reverse with
  | '0' :: '.' :: digits => (asciiNumber (String.ofList digits.reverse)).map fun _ => ⟨text⟩
  | _ => asciiNumber text

def wholeFloat (number : Number) : Rat :=
  match number.text.toList.reverse with
  | '0' :: '.' :: digits => Number.digitsValue digits.reverse
  | digits => Number.digitsValue digits.reverse

def WholePrinted (number : Number) : Prop := wholeText number.text = some number

lemma wholeText_reads : ReadsNumbersBack wholeText WholePrinted := by
  have hshape : ∀ number, WholePrinted number → PlainNumber number ∨
      ∃ digits, number.text.toList = digits ++ ['.', '0'] ∧ PlainNumber ⟨String.ofList digits⟩ := by
    intro number hprin
    unfold WholePrinted wholeText at hprin
    split at hprin
    · rename_i digits htext
      refine .inr ⟨digits.reverse, ?_, ?_⟩
      · rw [← List.reverse_reverse number.text.toList, htext]
        simp
      · obtain ⟨plain, hplain, -⟩ := Option.map_eq_some_iff.mp hprin
        have hsame := hplain
        unfold asciiNumber at hsame
        dsimp only at hsame
        split_ifs at hsame
        cases hsame
        exact hplain
    · exact .inl hprin
  refine ⟨fun number hprin c hc => ?_, fun number hprin hnil => ?_, fun _ h => h⟩
  · rcases hshape number hprin with hplain | ⟨digits, htext, hplain⟩
    · exact asciiNumber_reads.chars number hplain c hc
    · rw [htext, List.mem_append] at hc
      rcases hc with hc | hc
      · exact asciiNumber_reads.chars _ hplain c (by rwa [String.toList_ofList])
      · rcases List.mem_cons.mp hc with rfl | hc
        · rfl
        · obtain rfl := List.mem_singleton.mp hc
          rfl
  · rcases hshape number hprin with hplain | ⟨digits, htext, -⟩
    · exact asciiNumber_reads.nonempty number hplain hnil
    · rw [hnil] at htext
      simp at htext

lemma wholeText_saves : @SavesNumbers wholePlatform WholePrinted id wholeFloat := by
  refine @SavesNumbers.mk wholePlatform _ _ _ (fun n hn => ⟨?_, rfl⟩) fun x hx => ?_
  · have hplain : asciiNumber (toString n) = some ⟨toString n⟩ := plainNumber_ofNat hn
    show wholeText (toString n) = some ⟨toString n⟩
    unfold wholeText
    split
    · -- the digits of a count have no point among them
      rename_i digits htext
      have hpoint : '.' ∈ (toString n).toList := by
        rw [← List.mem_reverse, htext]
        simp
      exact absurd (JsonCodec.isDigit_of_mem_toString hpoint) (by decide)
    · exact hplain
  · obtain ⟨number, hnumber⟩ := Option.isSome_iff_exists.mp hx
    refine ⟨number, hnumber, ?_⟩
    change wholeNumber x = some number at hnumber
    unfold wholeNumber at hnumber
    split_ifs at hnumber with hwhole
    cases hnumber
    have htext : (toString x.num.toNat ++ ".0").toList.reverse =
        '0' :: '.' :: (toString x.num.toNat).toList.reverse := by
      rw [String.toList_append, List.reverse_append]
      rfl
    have hplain : asciiNumber (toString x.num.toNat) = some ⟨toString x.num.toNat⟩ :=
      plainNumber_ofNat (by omega)
    have hvalue : Number.digitsValue (toString x.num.toNat).toList = x.num.toNat := by
      have hread := JsonCodec.asU64_ofNat x.num.toNat
      unfold Number.asU64 Number.ofNat at hread
      dsimp only at hread
      split_ifs at hread
      exact Option.some.inj hread
    refine ⟨?_, ?_⟩
    · show wholeText (toString x.num.toNat ++ ".0") = some _
      unfold wholeText
      rw [htext]
      simp only [List.reverse_reverse, String.ofList_toList, hplain, Option.map_some]
    · show wholeFloat ⟨toString x.num.toNat ++ ".0"⟩ = x
      unfold wholeFloat
      simp only [htext, List.reverse_reverse, hvalue]
      have hnum : (x.num.toNat : Int) = x.num := Int.toNat_of_nonneg (Rat.num_nonneg.mpr hwhole.2.1)
      have hcast : ((x.num.toNat : Int) : Rat) = x := by
        rw [hnum]
        exact Rat.coe_int_num_of_den_eq_one hwhole.1
      exact_mod_cast hcast

def urgentAssessment : @EvaluatedAssessment wholePlatform :=
  letI := wholePlatform
  ⟨RESULT_VERSION, [urgentAnswer], 2⟩

theorem urgentAssessment_decodes_to_itself :
    letI := wholePlatform
    ∃ decoded, decodeResults (compactDocument wholeText) wholeFloat (fun _ => "refused")
        urgentAssessment.json.render.toByteArray = .ok decoded ∧
      decoded.validateForDeclarations [triage] [triageRequirements] = .ok urgentAssessment := by
  let platform := wholePlatform
  have hvalid : urgentAssessment.validateForDeclarations [triage] [triageRequirements] = .ok () := by
    decide +kernel
  exact (saved_results_decode_to_themselves (compactDocument_reads wholeText_reads) wholeText_saves
    (fun _ => "refused") [triage] [triageRequirements]).1 urgentAssessment hvalid

end Antiburn
