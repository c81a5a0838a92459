/-
The composite sink over all records.

`Consistent` holds of the empty sink and after every record: both keyed collections
are valid stores, the counter of native facts is exact, and after an admission failure
everything that is kept is already rewritten.  Completeness and the keys that are out
are followed from one record to the next.
-/
import Antiburn.CompositeSinkSteps

namespace Antiburn

namespace CompositeSink

open KeyedStore

section Codec

variable (codec : NativeCodec)

structure Failed (sink : CompositeSink) (reason : ToolResultCompleteness) : Prop where
  results : sink.results.complete = false
  messages : sink.messages.complete = false
  evidence : sink.evidence.complete = false
  resultsFixed : ∀ result ∈ sink.results.observations, result.invalidateAdmission reason = result
  factsFixed : ∀ fact ∈ sink.evidence.facts, fact.invalidateAdmission reason = fact

structure Consistent (sink : CompositeSink) : Prop where
  results : Valid (resultCosts codec) sink.results.store
  sized : sink.results.Sized codec
  messages : Valid (messageCosts codec) sink.messages.store
  messageBytes : sink.messages.bytes ≤ MAX_USER_MESSAGE_COLLECTION_BYTES
  present : ∀ message ∈ sink.messages.messages,
    codec.isBounded message = true ∧ message.change ≠ .conflict
  evidence : sink.evidence.Counted codec
  failed : ∀ failure, sink.nativeAdmissionFailure = some failure → Failed sink failure.reason

lemma consistent_empty : Consistent codec {} where
  results := ⟨rfl, List.nodup_nil, fun _ h => absurd h List.not_mem_nil, rfl,
    Nat.zero_le _, fun h => absurd h (Finset.notMem_empty _)⟩
  sized := rfl
  messages := ⟨rfl, List.nodup_nil, fun _ h => absurd h List.not_mem_nil, rfl,
    Nat.zero_le _, fun h => absurd h (Finset.notMem_empty _)⟩
  messageBytes := Nat.zero_le _
  present := fun _ h => absurd h List.not_mem_nil
  evidence := ⟨rfl, Nat.zero_le _⟩
  failed := nofun

/-! ### Rewriting twice -/

section

variable (reason : ToolResultCompleteness)
include reason

@[simp] lemma EventContext.invalidate_invalidate (ctx : EventContext) :
    ctx.invalidate.invalidate = ctx.invalidate := rfl

@[simp] lemma ToolResultObservation.invalidate_invalidate (result : ToolResultObservation) :
    (result.invalidateAdmission reason).invalidateAdmission reason =
      result.invalidateAdmission reason := by
  unfold ToolResultObservation.invalidateAdmission
  cases result.context <;> simp

@[simp] lemma NativeMessageObservation.invalidate_invalidate (message : NativeMessageObservation) :
    (message.invalidateAdmission reason).invalidateAdmission reason =
      message.invalidateAdmission reason := by
  cases message with
  | user ctx rest => rfl
  | publicMessage eligible completeness ctx rest =>
    cases ctx <;> simp [NativeMessageObservation.invalidateAdmission]
  | toolResult result => simp [NativeMessageObservation.invalidateAdmission]

@[simp] lemma NativeEvidenceFact.invalidate_invalidate (fact : NativeEvidenceFact) :
    (fact.invalidateAdmission reason).invalidateAdmission reason =
      fact.invalidateAdmission reason := by
  cases fact with
  | message value | responseCycle ctx messages rest => simp [NativeEvidenceFact.invalidateAdmission]
  | admissionFailure | other => rfl

end

/-! ### One record -/

variable {sink : CompositeSink} {records : List SinkRecord} {key : String}

lemma Consistent.observeResult (h : Consistent codec sink)
    (result : ToolResultObservation) :
    Consistent codec (record codec sink (.toolResult result)) := by
  obtain ⟨hstep, hsized⟩ :=
    ToolResults.observe_step codec h.results h.sized sink.nativeAdmissionFailure result
  refine { h with
    results := hstep.valid h.results (resultCosts_real codec) rfl
    sized := hsized
    failed := fun failure hfail => ?_ }
  have hfailed := h.failed failure hfail
  refine { hfailed with results := ?_, resultsFixed := fun other hother => ?_ }
  · -- it was incomplete before
    by_contra hcomp
    have hbefore := (hstep.complete (Bool.eq_true_of_not_eq_false hcomp)).1
    exact absurd (hfailed.results.symm.trans hbefore) Bool.false_ne_true
  · rcases hstep.mem hother with hold | rfl
    · exact hfailed.resultsFixed other hold
    · rw [show sink.nativeAdmissionFailure = some failure from hfail]
      exact ToolResultObservation.invalidate_invalidate _ _

lemma Consistent.observeMessage (h : Consistent codec sink)
    (request : UserMessage) : Consistent codec (record codec sink (.userMessage request)) := by
  have hstep := UserMessages.observe_step codec h.messages request
  refine { h with
    messages := hstep.valid h.messages (messageCosts_real codec) rfl
    messageBytes := hstep.within h.messageBytes
    present := fun message hmsg => ?_
    failed := fun failure hfail => ?_ }
  · rcases UserMessages.mem_observe codec h.messages hmsg with hold | ⟨rfl, hbounded, hchange⟩
    · exact h.present message hold
    · exact ⟨hbounded, hchange⟩
  · have hfailed := h.failed failure hfail
    refine { hfailed with messages := ?_ }
    by_contra hcomp
    have hbefore := (hstep.complete (Bool.eq_true_of_not_eq_false hcomp)).1
    exact absurd (hfailed.messages.symm.trans hbefore) Bool.false_ne_true

lemma Consistent.retainFact (h : Consistent codec sink)
    (fact : NativeEvidenceFact) : Consistent codec (retainNativeEvidence codec sink fact) := by
  obtain ⟨hcntd, hcomp, hmem⟩ :=
    NativeFacts.retain_spec codec h.evidence sink.nativeAdmissionFailure fact
  refine { h with evidence := hcntd, failed := fun failure hfail => ?_ }
  have hfailed := h.failed failure hfail
  refine { hfailed with evidence := ?_, factsFixed := fun other hother => ?_ }
  · by_contra hnot
    have hbefore := (hcomp (Bool.eq_true_of_not_eq_false hnot)).1
    exact absurd (hfailed.evidence.symm.trans hbefore) Bool.false_ne_true
  · rcases hmem other hother with rfl | hold
    · rw [show sink.nativeAdmissionFailure = some failure from hfail]
      exact NativeEvidenceFact.invalidate_invalidate _ _
    · exact hfailed.factsFixed other hold

def rewritten (sink : CompositeSink) (reason : ToolResultCompleteness) : CompositeSink :=
  toolResultGap { sink with
    results := sink.results.invalidate codec reason
    evidence := sink.evidence.invalidate codec sink.nativeAdmissionFailure.isSome reason }

lemma Consistent.rewritten (h : Consistent codec sink)
    (failure : Option NativeAdmissionFailure) (reason : ToolResultCompleteness)
    (hreason : ∀ first, failure = some first → first.reason = reason) :
    Consistent codec
      (rewritten codec { sink with nativeAdmissionFailure := failure } reason) := by
  obtain ⟨hress, hsized⟩ := ToolResults.invalidate_valid codec h.results reason
  refine
    { results := hress
      sized := hsized
      messages := h.messages.incomplete
      messageBytes := h.messageBytes
      present := h.present
      evidence := ?_
      failed := fun first hfirst => ⟨rfl, rfl, rfl, ?_, ?_⟩ }
  · have hcntd := NativeFacts.invalidate_counted codec failure.isSome reason sink.evidence
    exact ⟨hcntd.bytes, hcntd.within⟩
  · rw [hreason first hfirst]
    intro result hresult
    obtain ⟨old, -, rfl⟩ := List.mem_map.mp hresult
    exact ToolResultObservation.invalidate_invalidate _ _
  · rw [hreason first hfirst]
    intro fact hfact
    obtain ⟨old, -, rfl⟩ := NativeFacts.mem_invalidate codec hfact
    have hsome : failure.isSome = true := Option.isSome_iff_exists.mpr ⟨first, hfirst⟩
    dsimp only
    rw [hsome, Bool.true_or, if_pos rfl]
    exact NativeEvidenceFact.invalidate_invalidate _ _

def standingReason (failure : Option NativeAdmissionFailure) (reason : ToolResultCompleteness) :
    ToolResultCompleteness :=
  (failure.map NativeAdmissionFailure.reason).getD reason

lemma standingReason_some {failure : Option NativeAdmissionFailure}
    {reason : ToolResultCompleteness} (first : NativeAdmissionFailure)
    (h : failure = some first) : first.reason = standingReason failure reason := by
  rw [h]
  rfl

lemma NativeAdmissionFailure.admission_reason {failure : NativeAdmissionFailure}
    (h : failure.valid = true) : admissionReason failure.admission = some failure.reason := by
  unfold NativeAdmissionFailure.valid unsafeReason at h
  unfold NativeAdmissionFailure.admission
  cases hreason : failure.reason with
  | complete | incomplete =>
    rw [hreason] at h
    simp at h
  | unsafeIdentity | unsafeOrder | unsafeOwnership => rfl

def rewriteReason (sink : CompositeSink) : SinkRecord → Option ToolResultCompleteness
  | .admissionGap admission =>
    (admissionReason admission).map (standingReason sink.nativeAdmissionFailure)
  | .admissionFailure failure =>
    if failure.valid then some (standingReason sink.nativeAdmissionFailure failure.reason)
    else none
  | _ => none

/-- Collections become incomplete unless they are spared. -/
def marked (sink : CompositeSink) (results others : Bool) : CompositeSink :=
  { sink with
    results := { sink.results with complete := sink.results.complete && results }
    messages := { sink.messages with complete := sink.messages.complete && others }
    evidence := { sink.evidence with complete := sink.evidence.complete && others } }

def SinkRecord.isItem : SinkRecord → Bool
  | toolResult _ | userMessage _ | nativeFact _ => true
  | unusable | gap | admissionGap _ | admissionFailure _ => false

lemma record_other (sink : CompositeSink) {entry : SinkRecord} (hitem : entry.isItem = false) :
    (rewriteReason sink entry = none ∧
        ∃ results others, record codec sink entry = marked sink results others) ∨
      ∃ reason, rewriteReason sink entry = some reason ∧
        (record codec sink entry = CompositeSink.rewritten codec sink reason ∧
            (∀ first, sink.nativeAdmissionFailure = some first → first.reason = reason) ∨
          ∃ failure, failure.reason = reason ∧
            record codec sink entry = retainNativeEvidence codec
              (CompositeSink.rewritten codec { sink with nativeAdmissionFailure := some failure }
                reason) (.admissionFailure failure)) := by
  cases entry with
  | toolResult | userMessage | nativeFact => cases hitem
  | unusable =>
    refine .inl ⟨rfl, true, false, ?_⟩
    simp [record, marked]
  | gap =>
    refine .inl ⟨rfl, false, false, ?_⟩
    simp [record, toolResultGap, marked]
  | admissionGap admission =>
    cases hreason : admissionReason admission with
    | none =>
      refine .inl ⟨by simp [rewriteReason, hreason], true, true, ?_⟩
      simp [record, toolResultAdmissionGap, hreason, marked]
    | some reason =>
      refine .inr ⟨standingReason sink.nativeAdmissionFailure reason, ?_, .inl ⟨?_, ?_⟩⟩
      · simp [rewriteReason, hreason]
      · simp only [record, toolResultAdmissionGap, hreason]
        rfl
      · exact standingReason_some
  | admissionFailure failure =>
    cases hvalid : failure.valid with
    | false =>
      refine .inl ⟨by simp [rewriteReason, hvalid], false, false, ?_⟩
      simp [record, observeAdmissionFailure, toolResultGap, hvalid, marked]
    | true =>
      have hadmn := NativeAdmissionFailure.admission_reason hvalid
      refine .inr ⟨standingReason sink.nativeAdmissionFailure failure.reason,
        by simp [rewriteReason, hvalid], ?_⟩
      cases hfirst : sink.nativeAdmissionFailure with
      | some first =>
        refine .inl ⟨?_, fun other hother => ?_⟩
        · simp only [record, observeAdmissionFailure, hvalid, hfirst, toolResultAdmissionGap,
            hadmn, CompositeSink.rewritten, standingReason, Bool.not_true,
            Bool.false_eq_true, if_false]
        · rw [← Option.some.inj hother]
          rfl
      | none =>
        refine .inr ⟨failure, rfl, ?_⟩
        simp only [record, observeAdmissionFailure, hvalid, hfirst, toolResultAdmissionGap,
          hadmn]
        rfl

lemma Consistent.marked (h : Consistent codec sink)
    (results others : Bool) : Consistent codec (marked sink results others) where
  results := { h.results with
    blocked := fun hblock => by
      obtain ⟨hconfl, hcomp⟩ := h.results.blocked hblock
      exact ⟨hconfl, Bool.and_eq_false_imp.mpr fun htrue =>
        absurd (htrue.symm.trans hcomp) (by decide)⟩ }
  sized := h.sized
  messages := { h.messages with
    blocked := fun hblock => by
      obtain ⟨hconfl, hcomp⟩ := h.messages.blocked hblock
      exact ⟨hconfl, Bool.and_eq_false_imp.mpr fun htrue =>
        absurd (htrue.symm.trans hcomp) (by decide)⟩ }
  messageBytes := h.messageBytes
  present := h.present
  evidence := ⟨h.evidence.bytes, h.evidence.within⟩
  failed := fun failure hfail => by
    have hfailed := h.failed failure hfail
    refine { hfailed with results := ?_, messages := ?_, evidence := ?_ }
    · exact Bool.and_eq_false_iff.mpr (.inl hfailed.results)
    · exact Bool.and_eq_false_iff.mpr (.inl hfailed.messages)
    · exact Bool.and_eq_false_iff.mpr (.inl hfailed.evidence)

lemma Consistent.record (h : Consistent codec sink) (entry : SinkRecord) :
    Consistent codec (record codec sink entry) := by
  cases hitem : entry.isItem with
  | true =>
    cases entry with
    | toolResult result => exact h.observeResult codec result
    | userMessage request => exact h.observeMessage codec request
    | nativeFact fact => exact h.retainFact codec fact
    | unusable | gap | admissionGap | admissionFailure => cases hitem
  | false =>
  rcases record_other codec sink hitem with ⟨-, results, others, heq⟩ |
    ⟨reason, -, ⟨heq, hreason⟩ | ⟨failure, rfl, heq⟩⟩
  · exact heq ▸ h.marked codec results others
  · exact heq ▸ h.rewritten codec sink.nativeAdmissionFailure reason hreason
  · rw [heq]
    refine (h.rewritten codec (some failure) failure.reason fun first hfirst => ?_).retainFact
      codec _
    rw [Option.some.inj hfirst]

lemma ofRecords_snoc (records : List SinkRecord) (entry : SinkRecord) :
    ofRecords codec (records ++ [entry]) =
      CompositeSink.record codec (ofRecords codec records) entry := by
  unfold ofRecords
  rw [List.foldl_append]
  rfl

lemma consistent_ofRecords (records : List SinkRecord) :
    Consistent codec (ofRecords codec records) := by
  induction records using List.reverseRecOn with
  | nil => exact consistent_empty codec
  | append_singleton records entry ih =>
    rw [ofRecords_snoc]
    exact ih.record codec entry

/-! ### What one record does to each collection -/

lemma record_results (sink : CompositeSink) (entry : SinkRecord) :
    (∃ result, entry = .toolResult result ∧ (record codec sink entry).results =
        sink.results.observe codec sink.nativeAdmissionFailure result) ∨
      (∀ result, entry ≠ .toolResult result) ∧
        ((∃ complete, (record codec sink entry).results =
            { sink.results with complete := sink.results.complete && complete }) ∨
          ∃ reason, rewriteReason sink entry = some reason ∧
            (record codec sink entry).results = sink.results.invalidate codec reason) := by
  cases hitem : entry.isItem with
  | true =>
    cases entry with
    | toolResult result => exact .inl ⟨result, rfl, rfl⟩
    | userMessage request =>
      exact .inr ⟨fun _ h => SinkRecord.noConfusion h, .inl ⟨true, by simp [record]⟩⟩
    | nativeFact fact =>
      exact .inr ⟨fun _ h => SinkRecord.noConfusion h,
        .inl ⟨true, by simp [record, retainNativeEvidence]⟩⟩
    | unusable | gap | admissionGap | admissionFailure => cases hitem
  | false =>
  refine .inr ⟨?_, ?_⟩
  · rintro result rfl
    cases hitem
  rcases record_other codec sink hitem with ⟨-, results, others, heq⟩ | ⟨reason, hsome, heq⟩
  · exact .inl ⟨results, by rw [heq]; rfl⟩
  · refine .inr ⟨reason, hsome, ?_⟩
    rcases heq with ⟨heq, -⟩ | ⟨failure, -, heq⟩
    · rw [heq]
      rfl
    · rw [heq]
      rfl

lemma record_messages (sink : CompositeSink) (entry : SinkRecord) :
    (∃ request, entry = .userMessage request ∧
        (record codec sink entry).messages = sink.messages.observe codec request) ∨
      (∀ request, entry ≠ .userMessage request) ∧ ∃ complete,
        (record codec sink entry).messages =
          { sink.messages with complete := sink.messages.complete && complete } := by
  cases hitem : entry.isItem with
  | true =>
    cases entry with
    | toolResult result =>
      exact .inr ⟨fun _ h => SinkRecord.noConfusion h, true, by simp [record]⟩
    | userMessage request => exact .inl ⟨request, rfl, rfl⟩
    | nativeFact fact =>
      exact .inr ⟨fun _ h => SinkRecord.noConfusion h, true, by simp [record, retainNativeEvidence]⟩
    | unusable | gap | admissionGap | admissionFailure => cases hitem
  | false =>
  refine .inr ⟨?_, ?_⟩
  · rintro request rfl
    cases hitem
  rcases record_other codec sink hitem with ⟨-, results, others, heq⟩ | ⟨reason, -, heq⟩
  · exact ⟨others, by rw [heq]; rfl⟩
  · refine ⟨false, ?_⟩
    rw [Bool.and_false]
    rcases heq with ⟨heq, -⟩ | ⟨failure, -, heq⟩
    · rw [heq]
      rfl
    · rw [heq]
      rfl

lemma record_out_results (h : Consistent codec sink) (entry : SinkRecord)
    (hout : Out (resultCosts codec) sink.results.store key) :
    Out (resultCosts codec) (record codec sink entry).results.store key := by
  rcases record_results codec sink entry with
    ⟨result, -, heq⟩ | ⟨-, ⟨complete, heq⟩ | ⟨reason, -, heq⟩⟩
  · rw [heq]
    exact (ToolResults.observe_step codec h.results h.sized _ result).1.out hout
  · rw [heq]
    exact hout
  · rw [heq]
    refine ⟨fun result hresult => ?_, hout.2⟩
    obtain ⟨old, hold, rfl⟩ := List.mem_map.mp hresult
    exact hout.1 old hold

lemma record_out_messages (h : Consistent codec sink)
    (entry : SinkRecord)
    (hout : Out (messageCosts codec) sink.messages.store key) :
    Out (messageCosts codec) (record codec sink entry).messages.store key := by
  rcases record_messages codec sink entry with ⟨request, -, heq⟩ | ⟨-, complete, heq⟩
  · rw [heq]
    exact (UserMessages.observe_step codec h.messages request).out hout
  · rw [heq]
    exact hout

lemma ofRecords_append_out (more : List SinkRecord) :
    (Out (resultCosts codec) (ofRecords codec records).results.store key →
        Out (resultCosts codec) (ofRecords codec (records ++ more)).results.store key) ∧
      (Out (messageCosts codec) (ofRecords codec records).messages.store key →
        Out (messageCosts codec) (ofRecords codec (records ++ more)).messages.store key) := by
  induction more using List.reverseRecOn with
  | nil =>
    rw [List.append_nil]
    exact ⟨id, id⟩
  | append_singleton more entry ih =>
    have hcons := consistent_ofRecords codec (records ++ more)
    rw [← List.append_assoc, ofRecords_snoc]
    exact ⟨fun hout => record_out_results codec hcons entry (ih.1 hout),
      fun hout => record_out_messages codec hcons entry (ih.2 hout)⟩

/-! ### Completeness -/

lemma Consistent.not_failed (h : Consistent codec sink)
    (hcomp : sink.results.complete = true ∨ sink.messages.complete = true ∨
      sink.evidence.complete = true) : sink.nativeAdmissionFailure = none := by
  cases hfail : sink.nativeAdmissionFailure with
  | none => rfl
  | some failure =>
    obtain ⟨hress, hmsgs, hevidence, -, -⟩ := h.failed failure hfail
    rw [hress, hmsgs, hevidence] at hcomp
    simp at hcomp

lemma results_complete
    (h : (ofRecords codec records).results.complete = true) :
    ∀ result, .toolResult result ∈ records →
      result ∈ (ofRecords codec records).results.observations := by
  induction records using List.reverseRecOn with
  | nil => exact fun _ h => absurd h List.not_mem_nil
  | append_singleton records entry ih =>
    have hcons := consistent_ofRecords codec records
    rw [ofRecords_snoc] at h ⊢
    intro result hmem
    rw [List.mem_append, List.mem_singleton] at hmem
    rcases record_results codec (ofRecords codec records) entry with
      ⟨last, rfl, heq⟩ | ⟨hother, ⟨complete, heq⟩ | ⟨reason, -, heq⟩⟩
    · rw [heq] at h ⊢
      obtain ⟨hbefore, hkept, hnew⟩ := (ToolResults.observe_step codec hcons.results
        hcons.sized _ last).1.complete h
      rcases hmem with hmem | hlast
      · exact hkept _ (ih hbefore result hmem)
      · rw [hcons.not_failed codec (.inl hbefore)] at hnew ⊢
        cases hlast
        exact hnew
    · rw [heq] at h ⊢
      exact ih (Bool.and_eq_true_iff.mp h).1 result
        (hmem.resolve_right fun hlast => hother result hlast.symm)
    · rw [heq] at h
      cases h

lemma messages_complete
    (h : (ofRecords codec records).messages.complete = true) :
    ∀ request, .userMessage request ∈ records →
      request ∈ (ofRecords codec records).messages.messages := by
  induction records using List.reverseRecOn with
  | nil => exact fun _ h => absurd h List.not_mem_nil
  | append_singleton records entry ih =>
    have hcons := consistent_ofRecords codec records
    rw [ofRecords_snoc] at h ⊢
    intro request hmem
    rw [List.mem_append, List.mem_singleton] at hmem
    rcases record_messages codec (ofRecords codec records) entry with
      ⟨last, rfl, heq⟩ | ⟨hother, complete, heq⟩
    · rw [heq] at h ⊢
      obtain ⟨hbefore, hkept, hnew⟩ :=
        (UserMessages.observe_step codec hcons.messages last).complete h
      rcases hmem with hmem | hlast
      · exact hkept _ (ih hbefore request hmem)
      · cases hlast
        exact hnew
    · rw [heq] at h ⊢
      exact ih (Bool.and_eq_true_iff.mp h).1 request
        (hmem.resolve_right fun hlast => hother request hlast.symm)

lemma evidence_complete
    (h : (ofRecords codec records).evidence.complete = true) :
    ∀ fact, .nativeFact fact ∈ records → fact ∈ (ofRecords codec records).evidence.facts := by
  induction records using List.reverseRecOn with
  | nil => exact fun _ h => absurd h List.not_mem_nil
  | append_singleton records entry ih =>
    have hcons := consistent_ofRecords codec records
    rw [ofRecords_snoc] at h ⊢
    intro fact hmem
    rw [List.mem_append, List.mem_singleton] at hmem
    cases hitem : entry.isItem with
    | true =>
      cases entry with
      | toolResult | userMessage => exact ih h fact (hmem.resolve_right nofun)
      | nativeFact last =>
        obtain ⟨hbefore, hkept, hnew⟩ :=
          (NativeFacts.retain_spec codec hcons.evidence _ last).2.1 h
        rcases hmem with hmem | hlast
        · exact hkept _ (ih hbefore fact hmem)
        · have hnone := hcons.not_failed codec (.inr (.inr hbefore))
          cases hlast
          simp only [record, retainNativeEvidence]
          rw [hnone] at hnew ⊢
          exact hnew
      | unusable | gap | admissionGap | admissionFailure => cases hitem
    | false =>
    have hold : SinkRecord.nativeFact fact ∈ records := by
      refine hmem.resolve_right ?_
      rintro rfl
      cases hitem
    rcases record_other codec (ofRecords codec records) hitem with
      ⟨-, results, others, heq⟩ | ⟨reason, -, ⟨heq, -⟩ | ⟨failure, -, heq⟩⟩
    · rw [heq] at h ⊢
      exact ih (Bool.and_eq_true_iff.mp h).1 fact hold
    · rw [heq] at h
      cases h
    · -- rewriting made the facts incomplete, and they stay so
      rw [heq] at h
      have hrewr := NativeFacts.invalidate_counted codec true reason
        (ofRecords codec records).evidence
      exact absurd ((NativeFacts.retain_spec codec ⟨hrewr.bytes, hrewr.within⟩
        (some failure) _).2.1 h).1 Bool.false_ne_true

/-! ### Bytes of tool results -/

/-- Whenever results are rewritten, what they become is within the bound. -/
def RewritesFit (records : List SinkRecord) : Prop :=
  ∀ before entry, before ++ [entry] <+: records →
    ∀ reason, rewriteReason (ofRecords codec before) entry = some reason →
      ((ofRecords codec before).results.invalidate codec reason).bytes ≤ MAX_TOOL_RESULT_BYTES

lemma results_within (h : RewritesFit codec records) :
    (ofRecords codec records).results.bytes ≤ MAX_TOOL_RESULT_BYTES := by
  induction records using List.reverseRecOn with
  | nil => exact Nat.zero_le _
  | append_singleton records entry ih =>
    have hbefore := ih fun before last hpart =>
      h before last (hpart.trans (List.prefix_append _ _))
    have hcons := consistent_ofRecords codec records
    rw [ofRecords_snoc]
    rcases record_results codec (ofRecords codec records) entry with
      ⟨result, -, heq⟩ | ⟨-, ⟨complete, heq⟩ | ⟨reason, hreason, heq⟩⟩
    · rw [heq]
      exact (ToolResults.observe_step codec hcons.results hcons.sized _
        result).1.within hbefore
    · rw [heq]
      exact hbefore
    · rw [heq]
      exact h records entry (List.prefix_refl _) reason hreason

/-! ### Recording again -/

lemma record_same_result (h : Consistent codec sink)
    {result : ToolResultObservation} (hmem : result ∈ sink.results.observations)
    (hkey : toolResultRevisionKey result ≠ none) :
    record codec sink (.toolResult result) = sink := by
  obtain ⟨key, hkey⟩ := Option.ne_none_iff_exists'.mp hkey
  have hfixed : result.afterFailure sink.nativeAdmissionFailure = result := by
    cases hfail : sink.nativeAdmissionFailure with
    | none => rfl
    | some failure => exact (h.failed failure hfail).resultsFixed result hmem
  have hsame : sink.results.observe codec sink.nativeAdmissionFailure result = sink.results :=
    ToolResults.observe_same codec h.results (hfixed.symm ▸ hmem) (hfixed.symm ▸ hkey)
  unfold record
  dsimp only
  rw [hsame]

lemma record_same_message (h : Consistent codec sink)
    {message : UserMessage} (hmem : message ∈ sink.messages.messages) :
    record codec sink (.userMessage message) = sink := by
  obtain ⟨hbounded, hchange⟩ := h.present message hmem
  unfold record
  dsimp only
  rw [UserMessages.observe_same codec h.messages hmem hbounded hchange]

lemma record_same_fact (h : Consistent codec sink)
    {fact : NativeEvidenceFact} (hmem : fact ∈ sink.evidence.facts) :
    record codec sink (.nativeFact fact) = sink := by
  have hfixed : fact.afterFailure sink.nativeAdmissionFailure = fact := by
    cases hfail : sink.nativeAdmissionFailure with
    | none => rfl
    | some failure => exact (h.failed failure hfail).factsFixed fact hmem
  unfold record retainNativeEvidence NativeFacts.retain
  dsimp only
  rw [hfixed, if_pos hmem]

/-! ### Conflicts -/

def Barred (conflicts : Finset String) (indices : String → Option Nat) (key : String) : Prop :=
  key ∈ conflicts ∨ "" ∈ conflicts ∧ indices key = none

lemma Barred.out {τ : Type*} {costs : Costs τ String} {store : Store τ String} (h : Valid costs store)
    (hempty : costs.blocked = "")
    (hbarred : Barred store.conflicts store.indices key) : Out costs store key := by
  rcases hbarred with hmem | ⟨hblock, hnone⟩
  · exact h.out hmem
  · exact ⟨h.gone hnone, .inr (hempty.symm ▸ hblock)⟩

lemma ToolResultObservation.afterFailure_key (failure : Option NativeAdmissionFailure)
    (result : ToolResultObservation) :
    toolResultRevisionKey (result.afterFailure failure) = toolResultRevisionKey result := by
  cases failure <;> rfl

lemma result_clash_out (h : Consistent codec sink)
    (hopen : "" ∉ sink.results.conflicts) {old result : ToolResultObservation}
    (hold : old ∈ sink.results.observations)
    (hkey : toolResultRevisionKey old = some key)
    (hsame : toolResultRevisionKey result = some key)
    (hne : result.afterFailure sink.nativeAdmissionFailure ≠ old) :
    Out (resultCosts codec) (record codec sink (.toolResult result)).results.store key :=
  ToolResults.observe_clash codec h.results h.sized hopen hold hkey
    ((ToolResultObservation.afterFailure_key _ _).trans hsame) hne

/-! ### The sink over all records -/

structure CollectionsAgree (records : List SinkRecord) : Prop where
  sizes : (ofRecords codec records).results.sizes =
    (ofRecords codec records).results.observations.map codec.resultLength
  resultIndices : ∀ key index, (ofRecords codec records).results.indices key = some index ↔
    ∃ result, (ofRecords codec records).results.observations[index]? = some result ∧
      toolResultRevisionKey result = some key
  messageIndices : ∀ key index, (ofRecords codec records).messages.indices key = some index ↔
    ∃ message, (ofRecords codec records).messages.messages[index]? = some message ∧
      userMessageIdentity message = key
  resultBytes : (ofRecords codec records).results.bytes =
    ((ofRecords codec records).results.observations.map codec.resultLength).sum +
      keyBytes (ofRecords codec records).results.conflicts
  messageBytes : (ofRecords codec records).messages.bytes =
    ((ofRecords codec records).messages.messages.map codec.messageLength).sum +
      keyBytes (ofRecords codec records).messages.conflicts
  factBytes : (ofRecords codec records).evidence.bytes =
    ((ofRecords codec records).evidence.facts.map codec.eventLength).sum
  resultCap : RewritesFit codec records →
    (ofRecords codec records).results.bytes ≤ MAX_TOOL_RESULT_BYTES
  messageCap : (ofRecords codec records).messages.bytes ≤ MAX_USER_MESSAGE_COLLECTION_BYTES
  factCap : (ofRecords codec records).evidence.bytes ≤ MAX_NATIVE_EVIDENCE_BYTES
  sameResult : ∀ result ∈ (ofRecords codec records).results.observations,
    toolResultRevisionKey result ≠ none →
      ofRecords codec (records ++ [.toolResult result]) = ofRecords codec records
  sameMessage : ∀ message ∈ (ofRecords codec records).messages.messages,
    ofRecords codec (records ++ [.userMessage message]) = ofRecords codec records
  sameFact : ∀ fact ∈ (ofRecords codec records).evidence.facts,
    ofRecords codec (records ++ [.nativeFact fact]) = ofRecords codec records
  /-- Two results under one key: from then on the key is not kept. -/
  resultClash : "" ∉ (ofRecords codec records).results.conflicts →
    ∀ old ∈ (ofRecords codec records).results.observations, ∀ result key,
      toolResultRevisionKey old = some key → toolResultRevisionKey result = some key →
        result.afterFailure (ofRecords codec records).nativeAdmissionFailure ≠ old →
          ∀ more, ∀ kept ∈
              (ofRecords codec (records ++ .toolResult result :: more)).results.observations,
            toolResultRevisionKey kept ≠ some key
  messageClash : "" ∉ (ofRecords codec records).messages.conflicts →
    ∀ request, codec.isBounded request = true →
      (ofRecords codec records).messages.Clashes request →
        ∀ more, ∀ kept ∈
            (ofRecords codec (records ++ .userMessage request :: more)).messages.messages,
          userMessageIdentity kept ≠ userMessageIdentity request
  resultBarred : ∀ key, Barred (ofRecords codec records).results.conflicts
      (ofRecords codec records).results.indices key →
    ∀ more, ∀ kept ∈ (ofRecords codec (records ++ more)).results.observations,
      toolResultRevisionKey kept ≠ some key
  messageBarred : ∀ key, Barred (ofRecords codec records).messages.conflicts
      (ofRecords codec records).messages.indices key →
    ∀ more, ∀ kept ∈ (ofRecords codec (records ++ more)).messages.messages,
      userMessageIdentity kept ≠ key
  resultsComplete : (ofRecords codec records).results.complete = true →
    ∀ result, .toolResult result ∈ records →
      result ∈ (ofRecords codec records).results.observations
  messagesComplete : (ofRecords codec records).messages.complete = true →
    ∀ request, .userMessage request ∈ records →
      request ∈ (ofRecords codec records).messages.messages
  factsComplete : (ofRecords codec records).evidence.complete = true →
    ∀ fact, .nativeFact fact ∈ records → fact ∈ (ofRecords codec records).evidence.facts

end Codec

/-! ### Results without an identity -/

def anonymousResult : ToolResultObservation where
  sourceFormat := .claudeJsonl
  sessionId := "session"
  recordId := none
  callId := none
  resultId := none
  revision := 0
  completeness := .complete
  context := none
  rest := ""

def hundredCodec : NativeCodec where
  resultLength := fun _ => 100
  messageLength := fun _ => 100
  eventLength := fun _ => 100
  isBounded := fun _ => true
  comesBefore := fun _ _ => false

end CompositeSink

end Antiburn
