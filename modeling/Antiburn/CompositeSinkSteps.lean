/-
What recording does to each collection of the composite sink.

Tool results and user messages are keyed stores, and recording is a step of them.
Native facts keep a counter only.
-/
import Antiburn.CompositeSink

namespace Antiburn

namespace CompositeSink

open KeyedStore

/-! ### Keys -/

lemma keyText_ne_empty (items : List String) : keyText items ≠ "" := by
  intro h
  have hlist := congrArg String.toList h
  unfold keyText at hlist
  simp at hlist

lemma toolResultRevisionKey_ne (result : ToolResultObservation) :
    toolResultRevisionKey result ≠ some "" := by
  unfold toolResultRevisionKey
  intro h
  obtain ⟨_, -, heq⟩ := Option.map_eq_some_iff.mp h
  exact keyText_ne_empty _ heq

/-! ### Making room -/

lemma evict_spec {τ : Type} {size : τ → Nat} {goes : List τ → Nat → Bool}
    {evict : List τ → Nat → List τ × Nat}
    (hnil : ∀ bytes, evict [] bytes = ([], bytes))
    (hcons : ∀ item rest bytes, evict (item :: rest) bytes =
      if goes (item :: rest) bytes then evict rest (bytes - size item) else (item :: rest, bytes))
    (items : List τ) (bytes : Nat) :
    ∃ count ≤ items.length, evict items bytes =
        (items.drop count, bytes - ((items.take count).map size).sum) ∧
      (items.drop count ≠ [] →
        goes (items.drop count) (bytes - ((items.take count).map size).sum) = false) := by
  induction items generalizing bytes with
  | nil => exact ⟨0, Nat.le_refl _, by rw [hnil]; simp, by simp⟩
  | cons item rest ih =>
    rw [hcons]
    cases hgoes : goes (item :: rest) bytes with
    | false => exact ⟨0, Nat.zero_le _, by simp, by simpa using hgoes⟩
    | true =>
      obtain ⟨count, hcount, heq, hstop⟩ := ih (bytes - size item)
      have hsum : bytes - size item - ((rest.take count).map size).sum =
          bytes - (((item :: rest).take (count + 1)).map size).sum := by
        rw [List.take_succ_cons, List.map_cons, List.sum_cons, Nat.sub_sub]
      rw [hsum] at heq hstop
      exact ⟨count + 1, Nat.succ_le_succ hcount, heq, hstop⟩

section Codec

variable (codec : NativeCodec)

/-! ### User messages -/

def messageCosts : Costs UserMessage String where
  key := fun msg => some (userMessageIdentity msg)
  size := codec.messageLength
  keySize := String.utf8ByteSize
  blocked := ""
  maxItems := MAX_USER_MESSAGE_OBSERVATIONS
  maxBytes := MAX_USER_MESSAGE_COLLECTION_BYTES

def UserMessages.store (state : UserMessages) : Store UserMessage String where
  items := state.messages
  indices := state.indices
  conflicts := state.conflicts
  bytes := state.bytes
  complete := state.complete

lemma messageCosts_real : (messageCosts codec).Real := fun _ h =>
  keyText_ne_empty _ (Option.some.inj h)

variable {key : String} {msg : UserMessage} {state : UserMessages}

section

variable (h : Valid (messageCosts codec) state.store) (request : UserMessage)
include h request

lemma UserMessages.markConflict_step (key : String)
    (hreal : key ≠ "") (hopen : "" ∉ state.conflicts) (hfresh : key ∉ state.conflicts) :
    KeyedStore.Step (messageCosts codec) request state.store (state.markConflict codec key).store ∧
      Out (messageCosts codec) (state.markConflict codec key).store key := by
  unfold UserMessages.markConflict
  rw [if_neg hopen]
  cases hindex : state.indices key with
  | none =>
    have hdrop : state.dropConflicting codec key = state := by
      unfold UserMessages.dropConflicting
      rw [hindex]
    have hgone := h.gone hindex
    rw [hdrop]
    dsimp only
    rw [if_pos hfresh]
    split
    next hfits =>
      exact ⟨.marks key hopen hindex hfresh hreal hfits.2, hgone,
        .inl (Finset.mem_insert_self _ _)⟩
    next => exact ⟨.marksFull key hopen, hgone, .inr (Finset.mem_singleton_self _)⟩
  | some index =>
    obtain ⟨found, hat, -⟩ := h.found.mp hindex
    have hdrop : state.dropConflicting codec key = { state with
        messages := state.messages.eraseIdx index
        bytes := state.bytes - codec.messageLength found }.rebuild := by
      unfold UserMessages.dropConflicting
      rw [hindex]
      dsimp only
      rw [show state.messages[index]? = some found from hat]
    have hbytes : ((state.store.items[index]?).map (messageCosts codec).size).getD 0 =
        codec.messageLength found := by
      rw [hat]
      rfl
    have hgone := h.erased_gone hindex
    rw [hdrop]
    dsimp only [UserMessages.rebuild]
    rw [if_pos hfresh]
    split
    next hfits =>
      have hstep := @KeyedStore.Step.clashes _ _ _ (messageCosts codec) request state.store key
        index hopen hindex hreal
      unfold Store.erased at hstep
      rw [hbytes] at hstep
      exact ⟨hstep hfits.2, hgone, .inl (Finset.mem_insert_self _ _)⟩
    next =>
      have hstep := @KeyedStore.Step.clashesFull _ _ _ (messageCosts codec) request state.store
        key index hopen hindex
      unfold Store.erased at hstep
      rw [hbytes] at hstep
      exact ⟨hstep, hgone, .inr (Finset.mem_singleton_self _)⟩

lemma UserMessages.retain_step
    (hopen : "" ∉ state.conflicts) (hfresh : userMessageIdentity request ∉ state.conflicts)
    (hnone : state.indices (userMessageIdentity request) = none) :
    KeyedStore.Step (messageCosts codec) request state.store
      (state.retain codec request (userMessageIdentity request)).store := by
  obtain ⟨count, hcount, hevict, -⟩ := @evict_spec UserMessage codec.messageLength
    (fun messages bytes => decide (messages.length ≥ MAX_USER_MESSAGE_OBSERVATIONS) ||
      decide (bytes + codec.messageLength request > MAX_USER_MESSAGE_COLLECTION_BYTES))
    (UserMessages.evict codec (codec.messageLength request)) (fun _ => rfl)
    (fun msg rest bytes => by simp [UserMessages.evict])
    state.messages state.bytes
  unfold UserMessages.retain
  dsimp only
  rw [hevict]
  dsimp only
  generalize hlefts : (if (state.messages.drop count).length < state.messages.length then
      ({ state with
        messages := state.messages.drop count
        bytes := state.bytes - ((state.messages.take count).map codec.messageLength).sum
        complete := false } : UserMessages).rebuild
      else state) = left
  -- whether or not some leave, what is left is the evicted store
  have hleft : left.store = state.store.evicted (messageCosts codec) count := by
    rw [← hlefts, List.length_drop]
    by_cases hzero : count = 0
    · subst hzero
      rw [if_neg (by omega), h.evicted_zero]
    · rw [if_pos (by omega)]
      unfold Store.evicted
      rw [decide_eq_false hzero, Bool.and_false]
      rfl
  split
  next =>
    have hstep := @KeyedStore.Step.drops _ _ _ (messageCosts codec) request state.store count
    rw [← hleft] at hstep
    exact hstep
  next hroom =>
    have hroom' := not_or.mp hroom
    have hitems : left.messages = state.messages.drop count := congrArg Store.items hleft
    have hbytes : left.bytes = (state.store.evicted (messageCosts codec) count).bytes :=
      congrArg Store.bytes hleft
    have hstep := @KeyedStore.Step.keeps _ _ _ (messageCosts codec) request state.store count hopen
      (fun key hkey => by
        rw [← Option.some.inj hkey]
        exact ⟨hnone, hfresh⟩)
      (by
        have hlen := Nat.not_le.mp hroom'.1
        rw [hitems] at hlen
        exact hlen)
      (by
        rw [← hbytes]
        exact Nat.not_lt.mp hroom'.2)
    rw [← hleft] at hstep
    exact hstep

lemma UserMessages.observe_step :
    KeyedStore.Step (messageCosts codec) request state.store (state.observe codec request).store := by
  unfold UserMessages.observe
  by_cases hopen : "" ∈ state.conflicts
  · rw [if_pos hopen]
    exact .refuses
  rw [if_neg hopen]
  split
  next => exact .refuses
  next =>
    dsimp only
    have hreal : userMessageIdentity request ≠ "" := keyText_ne_empty _
    by_cases hfresh : userMessageIdentity request ∈ state.conflicts
    · rw [if_pos hfresh]
      split
      next =>
        -- the identity is a conflict already
        have hgone : state.indices (userMessageIdentity request) = none := by
          cases hindex : state.indices (userMessageIdentity request) with
          | none => rfl
          | some index =>
            obtain ⟨found, hat, hkey⟩ := h.found.mp hindex
            exact absurd hfresh (h.apart found (List.mem_of_getElem? hat) _ hkey)
        unfold UserMessages.markConflict UserMessages.dropConflicting
        rw [if_neg hopen, hgone]
        dsimp only
        rw [if_neg (not_not.mpr hfresh)]
        exact .refuses
      next => exact .refuses
    rw [if_neg hfresh]
    split
    next => exact (UserMessages.markConflict_step codec h request _ hreal hopen hfresh).1
    next =>
      split
      next index hindex =>
        split
        next => exact (UserMessages.markConflict_step codec h request _ hreal hopen hfresh).1
        next hsame =>
          exact .same (List.mem_of_getElem? (not_not.mp hsame))
      next hnone => exact UserMessages.retain_step codec h request hopen hfresh hnone

end

lemma UserMessages.mem_markConflict
    (h : msg ∈ (state.markConflict codec key).messages) : msg ∈ state.messages := by
  have hdrop : ∀ other ∈ (state.dropConflicting codec key).messages, other ∈ state.messages := by
    unfold UserMessages.dropConflicting
    intro other hother
    split at hother
    · split at hother
      · exact List.mem_of_mem_eraseIdx hother
      · exact hother
    · exact hother
  unfold UserMessages.markConflict at h
  dsimp only at h
  split at h
  · exact h
  · split at h
    · split at h
      · exact hdrop msg h
      · exact hdrop msg h
    · exact hdrop msg h

lemma UserMessages.mem_observe
    (hvalid : Valid (messageCosts codec) state.store) {request : UserMessage}
    (h : msg ∈ (state.observe codec request).messages) :
    msg ∈ state.messages ∨
      msg = request ∧ codec.isBounded request = true ∧ request.change ≠ .conflict := by
  rcases (UserMessages.observe_step codec hvalid request).mem h with hold | rfl
  · exact .inl hold
  unfold UserMessages.observe at h
  split at h
  · exact .inl h
  split at h
  · exact .inl h
  next hbound =>
    dsimp only at h
    split at h
    · exact .inl (UserMessages.mem_markConflict codec h)
    next hchange => exact .inr ⟨rfl, by simpa using hbound, hchange⟩

lemma UserMessages.observe_same
    (hvalid : Valid (messageCosts codec) state.store)
    (hmem : msg ∈ state.messages) (hbound : codec.isBounded msg = true)
    (hchange : msg.change ≠ .conflict) : state.observe codec msg = state := by
  have hfresh : userMessageIdentity msg ∉ state.conflicts := hvalid.apart msg hmem _ rfl
  unfold UserMessages.observe
  by_cases hopen : "" ∈ state.conflicts
  · rw [if_pos hopen]
    have hcomp : state.complete = false := (hvalid.blocked hopen).2
    rw [← hcomp]
  obtain ⟨index, hat⟩ := List.mem_iff_getElem?.mp hmem
  have hindex : state.indices (userMessageIdentity msg) = some index :=
    hvalid.found.mpr ⟨msg, hat, rfl⟩
  rw [if_neg hopen, hbound]
  dsimp only
  rw [if_neg (by simp), if_neg hchange, if_neg hfresh, hindex]
  dsimp only
  rw [if_neg (not_not.mpr hat)]

/-- A message that says that it conflicts, or that differs from the one with its identity. -/
def UserMessages.Clashes (state : UserMessages) (request : UserMessage) : Prop :=
  request.change = .conflict ∨
    ∃ msg ∈ state.messages, userMessageIdentity msg = userMessageIdentity request ∧
      msg ≠ request

lemma UserMessages.observe_clash
    (hvalid : Valid (messageCosts codec) state.store) {request : UserMessage}
    (hopen : "" ∉ state.conflicts) (hbound : codec.isBounded request = true)
    (hclash : state.Clashes request) :
    Out (messageCosts codec) (state.observe codec request).store
      (userMessageIdentity request) := by
  by_cases hfresh : userMessageIdentity request ∈ state.conflicts
  · -- it is out already
    exact (UserMessages.observe_step codec hvalid request).out (hvalid.out hfresh)
  have hmark := (UserMessages.markConflict_step codec hvalid request _ (keyText_ne_empty _) hopen
    hfresh).2
  unfold UserMessages.observe
  rw [if_neg hopen, hbound, if_neg (by simp)]
  dsimp only
  by_cases hchange : request.change = .conflict
  · rw [if_pos hchange]
    exact hmark
  obtain ⟨msg, hmem, hkey, hne⟩ := hclash.resolve_left hchange
  obtain ⟨index, hat⟩ := List.mem_iff_getElem?.mp hmem
  have hindex : state.indices (userMessageIdentity request) = some index :=
    hvalid.found.mpr ⟨msg, hat, congrArg some hkey⟩
  rw [if_neg hchange, if_neg hfresh, hindex]
  dsimp only
  rw [if_pos]
  · exact hmark
  · rw [hat]
    exact fun heq => hne (Option.some.inj heq)

/-! ### Tool results -/

def resultCosts : Costs ToolResultObservation String where
  key := toolResultRevisionKey
  size := codec.resultLength
  keySize := String.utf8ByteSize
  blocked := ""
  maxItems := MAX_TOOL_RESULT_OBSERVATIONS
  maxBytes := MAX_TOOL_RESULT_BYTES

def ToolResults.store (state : ToolResults) : Store ToolResultObservation String where
  items := state.observations
  indices := state.indices
  conflicts := state.conflicts
  bytes := state.bytes
  complete := state.complete

def ToolResults.Sized (state : ToolResults) : Prop :=
  state.sizes = state.observations.map codec.resultLength

lemma resultCosts_real : (resultCosts codec).Real := toolResultRevisionKey_ne

lemma ToolResults.evict_eq (length : Nat) (sizes : List Nat) (bytes : Nat) :
    ∃ count ≤ sizes.length,
      ToolResults.evict length sizes bytes = (count, bytes - (sizes.take count).sum) := by
  induction sizes generalizing bytes with
  | nil => exact ⟨0, Nat.le_refl _, by simp [ToolResults.evict]⟩
  | cons size rest ih =>
    unfold ToolResults.evict
    split
    next =>
      obtain ⟨count, hcount, heq⟩ := ih (bytes - size)
      refine ⟨count + 1, Nat.succ_le_succ hcount, ?_⟩
      rw [heq, List.take_succ_cons, List.sum_cons, Nat.sub_sub]
    next => exact ⟨0, Nat.zero_le _, by simp⟩

section

variable {state : ToolResults} (h : Valid (resultCosts codec) state.store)
  (hsized : state.Sized codec)
include h hsized

lemma ToolResults.conflict_step (result : ToolResultObservation) {index : Nat} (hreal : key ≠ "")
    (hopen : "" ∉ state.conflicts) (hfound : state.indices key = some index) :
    KeyedStore.Step (resultCosts codec) result state.store (state.conflict key index).store ∧
      (state.conflict key index).Sized codec ∧
      Out (resultCosts codec) (state.conflict key index).store key := by
  have hsize : (state.sizes[index]?).getD 0 =
      ((state.store.items[index]?).map (resultCosts codec).size).getD 0 := by
    rw [hsized, List.getElem?_map]
    rfl
  have herased : (state.sizes.eraseIdx index) =
      (state.observations.eraseIdx index).map codec.resultLength := by
    rw [hsized, List.eraseIdx_map]
  have hgone := h.erased_gone hfound
  unfold ToolResults.conflict
  dsimp only
  rw [hsize]
  split
  next hfits =>
    exact ⟨@KeyedStore.Step.clashes _ _ _ (resultCosts codec) result state.store key index hopen
      hfound hreal hfits.2, herased, hgone, .inl (Finset.mem_insert_self _ _)⟩
  next =>
    exact ⟨@KeyedStore.Step.clashesFull _ _ _ (resultCosts codec) result state.store key index hopen
      hfound, herased, hgone, .inr (Finset.mem_singleton_self _)⟩

lemma ToolResults.retain_step (result : ToolResultObservation) (hopen : "" ∉ state.conflicts)
    (hfresh : ∀ key, toolResultRevisionKey result = some key →
      state.indices key = none ∧ key ∉ state.conflicts) :
    KeyedStore.Step (resultCosts codec) result state.store (state.retain codec result).store ∧
      (state.retain codec result).Sized codec := by
  unfold ToolResults.retain
  dsimp only
  split
  next => exact ⟨.refuses, hsized⟩
  next =>
    obtain ⟨count, hcount, hevict⟩ := ToolResults.evict_eq (codec.resultLength result) state.sizes
      state.bytes
    rw [hevict]
    dsimp only
    have hsum : (state.sizes.take count).sum =
        (resultCosts codec).itemBytes (state.store.items.take count) := by
      rw [hsized, ← List.map_take]
      rfl
    generalize hlefts : (if count > 0 then
        ({ state with
          observations := state.observations.drop count
          sizes := state.sizes.drop count
          bytes := state.bytes - (state.sizes.take count).sum
          complete := false } : ToolResults).rebuild
        else state) = left
    have hleft : left.store = state.store.evicted (resultCosts codec) count ∧
        left.Sized codec := by
      rw [← hlefts]
      by_cases hzero : count = 0
      · subst hzero
        rw [if_neg (Nat.lt_irrefl 0)]
        exact ⟨h.evicted_zero.symm, hsized⟩
      · rw [if_pos (Nat.pos_of_ne_zero hzero), hsum]
        refine ⟨?_, ?_⟩
        · unfold Store.evicted
          rw [decide_eq_false hzero, Bool.and_false]
          rfl
        · show state.sizes.drop count = (state.observations.drop count).map codec.resultLength
          rw [hsized, List.map_drop]
    obtain ⟨hstore, hleftSized⟩ := hleft
    split
    next =>
      have hstep := @KeyedStore.Step.drops _ _ _ (resultCosts codec) result state.store count
      rw [← hstore] at hstep
      exact ⟨hstep, hleftSized⟩
    next hroom =>
      have hroom' := not_or.mp hroom
      have hitems : left.observations = state.observations.drop count :=
        congrArg Store.items hstore
      have hbytes : left.bytes = (state.store.evicted (resultCosts codec) count).bytes :=
        congrArg Store.bytes hstore
      have hstep := @KeyedStore.Step.keeps _ _ _ (resultCosts codec) result state.store count hopen
        hfresh (by
          have hlen := Nat.not_le.mp hroom'.1
          rw [hitems] at hlen
          exact hlen)
        (by
          rw [← hbytes]
          exact Nat.not_lt.mp hroom'.2)
      rw [← hstore] at hstep
      refine ⟨?_, ?_⟩
      · exact hstep
      · show left.sizes ++ [_] = (left.observations ++ [result]).map codec.resultLength
        rw [hleftSized, List.map_append]
        rfl

lemma ToolResults.observe_step
    (failure : Option NativeAdmissionFailure) (result : ToolResultObservation) :
    KeyedStore.Step (resultCosts codec) (result.afterFailure failure) state.store
        (state.observe codec failure result).store ∧
      (state.observe codec failure result).Sized codec := by
  unfold ToolResults.observe
  dsimp only
  generalize result.afterFailure failure = result
  by_cases hopen : "" ∈ state.conflicts
  · rw [if_pos hopen]
    exact ⟨.refuses, hsized⟩
  rw [if_neg hopen]
  cases hkey : toolResultRevisionKey result with
  | none =>
    exact ToolResults.retain_step codec h hsized result hopen fun key hsome => by
      rw [hkey] at hsome
      cases hsome
  | some key =>
    dsimp only
    by_cases hfresh : key ∈ state.conflicts
    · rw [if_pos hfresh]
      exact ⟨.refuses, hsized⟩
    rw [if_neg hfresh]
    have hreal : key ≠ "" := fun heq => toolResultRevisionKey_ne result (heq ▸ hkey)
    cases hindex : state.indices key with
    | some index =>
      dsimp only
      split
      next =>
        obtain ⟨hstep, hsized', -⟩ :=
          ToolResults.conflict_step codec h hsized result hreal hopen hindex
        exact ⟨hstep, hsized'⟩
      next hsame => exact ⟨.same (List.mem_of_getElem? (not_not.mp hsame)), hsized⟩
    | none =>
      refine ToolResults.retain_step codec h hsized result hopen fun other hother => ?_
      rw [hkey] at hother
      cases hother
      exact ⟨hindex, hfresh⟩

end

variable {state : ToolResults}

lemma ToolResults.observe_same
    (hvalid : Valid (resultCosts codec) state.store) {failure : Option NativeAdmissionFailure}
    {result : ToolResultObservation} (hmem : result.afterFailure failure ∈ state.observations)
    (hkey : toolResultRevisionKey (result.afterFailure failure) = some key) :
    state.observe codec failure result = state := by
  unfold ToolResults.observe
  dsimp only
  generalize result.afterFailure failure = result at hmem hkey ⊢
  by_cases hopen : "" ∈ state.conflicts
  · rw [if_pos hopen]
    have hcomp : state.complete = false := (hvalid.blocked hopen).2
    rw [← hcomp]
  obtain ⟨index, hat⟩ := List.mem_iff_getElem?.mp hmem
  have hindex : state.indices key = some index := hvalid.found.mpr ⟨result, hat, hkey⟩
  have hfresh : key ∉ state.conflicts := hvalid.apart result hmem key hkey
  rw [if_neg hopen, hkey]
  dsimp only
  rw [if_neg hfresh, hindex]
  dsimp only
  rw [if_neg (not_not.mpr hat)]

lemma ToolResults.observe_clash
    (hvalid : Valid (resultCosts codec) state.store) (hsized : state.Sized codec)
    {failure : Option NativeAdmissionFailure} {result old : ToolResultObservation}
    (hopen : "" ∉ state.conflicts) (hold : old ∈ state.observations)
    (hkey : toolResultRevisionKey old = some key)
    (hsame : toolResultRevisionKey (result.afterFailure failure) = some key)
    (hne : result.afterFailure failure ≠ old) :
    Out (resultCosts codec) (state.observe codec failure result).store key := by
  unfold ToolResults.observe
  dsimp only
  generalize result.afterFailure failure = result at hsame hne ⊢
  obtain ⟨index, hat⟩ := List.mem_iff_getElem?.mp hold
  have hindex : state.indices key = some index := hvalid.found.mpr ⟨old, hat, hkey⟩
  have hreal : key ≠ "" := fun heq => toolResultRevisionKey_ne old (heq ▸ hkey)
  have hfresh : key ∉ state.conflicts := hvalid.apart old hold key hkey
  rw [if_neg hopen, hsame]
  dsimp only
  rw [if_neg hfresh, hindex]
  dsimp only
  rw [if_pos]
  · exact (ToolResults.conflict_step codec hvalid hsized result hreal hopen hindex).2.2
  · rw [hat]
    exact fun heq => hne (Option.some.inj heq).symm

lemma ToolResults.invalidate_valid
    (h : Valid (resultCosts codec) state.store) (reason : ToolResultCompleteness) :
    Valid (resultCosts codec) (state.invalidate codec reason).store ∧
      (state.invalidate codec reason).Sized codec := by
  have hkeys : (state.observations.map (·.invalidateAdmission reason)).filterMap
      toolResultRevisionKey = state.observations.filterMap toolResultRevisionKey := by
    rw [List.filterMap_map]
    rfl
  refine ⟨⟨?_, ?_, ?_, ?_, ?_, fun hblocked => ⟨(h.blocked hblocked).1, rfl⟩⟩, rfl⟩
  · refine h.indices.trans ?_
    exact (@positions_map _ _ _ toolResultRevisionKey (·.invalidateAdmission reason)
      state.observations fun _ => rfl).symm
  · exact hkeys ▸ h.distinct
  · intro item hitem key hkey
    obtain ⟨old, hold, rfl⟩ := List.mem_map.mp hitem
    exact h.apart old hold key hkey
  · rfl
  · show (state.observations.map _).length ≤ _
    rw [List.length_map]
    exact h.few

/-! ### Native facts -/

structure NativeFacts.Counted (state : NativeFacts) : Prop where
  bytes : state.bytes = (state.facts.map codec.eventLength).sum
  within : state.bytes ≤ MAX_NATIVE_EVIDENCE_BYTES

lemma insertFact_perm (fact : NativeEvidenceFact) (facts : List NativeEvidenceFact) :
    (NativeFacts.insertFact codec fact facts).Perm (fact :: facts) := by
  unfold NativeFacts.insertFact
  refine List.perm_insertIdx _ _ ?_
  cases hindex : facts.findIdx? fun prior => codec.comesBefore fact prior with
  | none => exact Nat.le_refl _
  | some index => exact Nat.le_of_lt (List.findIdx?_eq_some_iff_getElem.mp hindex).1

lemma sum_drop (size : NativeEvidenceFact → Nat) (facts : List NativeEvidenceFact) (count : Nat) :
    (facts.map size).sum - ((facts.take count).map size).sum =
      ((facts.drop count).map size).sum := by
  have hsplit : (facts.map size).sum =
      ((facts.take count).map size).sum + ((facts.drop count).map size).sum := by
    rw [← List.sum_append, ← List.map_append, List.take_append_drop]
  omega

lemma NativeFacts.retain_spec {state : NativeFacts} (h : state.Counted codec)
    (failure : Option NativeAdmissionFailure) (fact : NativeEvidenceFact) :
    (state.retain codec failure fact).Counted codec ∧
      ((state.retain codec failure fact).complete = true → state.complete = true ∧
        (∀ other ∈ state.facts, other ∈ (state.retain codec failure fact).facts) ∧
        fact.afterFailure failure ∈ (state.retain codec failure fact).facts) ∧
      (∀ other ∈ (state.retain codec failure fact).facts,
        other = fact.afterFailure failure ∨ other ∈ state.facts) := by
  unfold NativeFacts.retain
  dsimp only
  generalize fact.afterFailure failure = fact
  by_cases hmem : fact ∈ state.facts
  · rw [if_pos hmem]
    exact ⟨h, fun hcomp => ⟨hcomp, fun _ hother => hother, hmem⟩, fun _ hother => .inr hother⟩
  rw [if_neg hmem]
  by_cases hlong : codec.eventLength fact > MAX_NATIVE_EVIDENCE_BYTES
  · rw [if_pos hlong]
    exact ⟨⟨h.bytes, h.within⟩, nofun, fun _ hother => .inr hother⟩
  rw [if_neg hlong]
  obtain ⟨count, hcount, hevict, hstop⟩ := @evict_spec NativeEvidenceFact codec.eventLength
    (fun facts bytes => decide (facts.length ≥ MAX_NATIVE_EVIDENCE_OBSERVATIONS) ||
      decide (bytes + codec.eventLength fact > MAX_NATIVE_EVIDENCE_BYTES))
    (NativeFacts.evict codec (codec.eventLength fact)) (fun _ => rfl)
    (fun other rest bytes => by simp [NativeFacts.evict])
    state.facts state.bytes
  rw [hevict]
  rw [h.bytes, sum_drop] at hstop ⊢
  have hperm := insertFact_perm codec fact (state.facts.drop count)
  refine ⟨⟨?_, ?_⟩, ?_, ?_⟩
  · show _ + _ = _
    rw [(hperm.map codec.eventLength).sum_eq, List.map_cons, List.sum_cons, Nat.add_comm]
  · show _ + _ ≤ _
    by_cases hempty : state.facts.drop count = []
    · rw [hempty]
      simpa using Nat.not_lt.mp hlong
    · have hfits := hstop hempty
      rw [Bool.or_eq_false_iff, decide_eq_false_iff_not, decide_eq_false_iff_not] at hfits
      exact Nat.not_lt.mp hfits.2
  · intro hcomp
    rw [Bool.and_eq_true, decide_eq_true_eq, List.length_drop] at hcomp
    have hzero : count = 0 := by omega
    subst hzero
    exact ⟨hcomp.1, fun other hother => hperm.mem_iff.mpr (List.mem_cons_of_mem _ hother),
      hperm.mem_iff.mpr List.mem_cons_self⟩
  · intro other hother
    rcases List.mem_cons.mp (hperm.mem_iff.mp hother) with rfl | hother
    · exact .inl rfl
    · exact .inr (List.mem_of_mem_drop hother)

lemma NativeFacts.invalidate_counted (failed : Bool) (reason : ToolResultCompleteness)
    (state : NativeFacts) : (state.invalidate codec failed reason).Counted codec := by
  unfold NativeFacts.invalidate
  dsimp only
  generalize (state.facts.map fun fact =>
    if failed || fact.isToolResult then fact.invalidateAdmission reason else fact) = facts
  obtain ⟨count, hcount, htrim, hstop⟩ := @evict_spec NativeEvidenceFact codec.eventLength
    (fun _ bytes => decide (bytes > MAX_NATIVE_EVIDENCE_BYTES)) (NativeFacts.trim codec)
    (fun _ => rfl) (fun other rest bytes => by simp [NativeFacts.trim])
    facts (facts.map codec.eventLength).sum
  rw [htrim]
  rw [sum_drop] at hstop ⊢
  refine ⟨rfl, ?_⟩
  by_cases hempty : facts.drop count = []
  · rw [hempty]
    exact Nat.zero_le _
  · exact Nat.not_lt.mp (decide_eq_false_iff_not.mp (hstop hempty))

lemma NativeFacts.mem_invalidate {failed : Bool} {reason : ToolResultCompleteness}
    {state : NativeFacts} {fact : NativeEvidenceFact}
    (h : fact ∈ (state.invalidate codec failed reason).facts) :
    ∃ old ∈ state.facts,
      fact = if failed || old.isToolResult then old.invalidateAdmission reason else old := by
  unfold NativeFacts.invalidate at h
  dsimp only at h
  obtain ⟨count, -, htrim, -⟩ := @evict_spec NativeEvidenceFact codec.eventLength
    (fun _ bytes => decide (bytes > MAX_NATIVE_EVIDENCE_BYTES)) (NativeFacts.trim codec)
    (fun _ => rfl) (fun other rest bytes => by simp [NativeFacts.trim])
    (state.facts.map fun fact =>
      if failed || fact.isToolResult then fact.invalidateAdmission reason else fact)
    ((state.facts.map fun fact =>
      if failed || fact.isToolResult then fact.invalidateAdmission reason else fact).map
        codec.eventLength).sum
  rw [htrim] at h
  obtain ⟨old, hold, heq⟩ := List.mem_map.mp (List.mem_of_mem_drop h)
  exact ⟨old, hold, heq.symm⟩

end Codec

end CompositeSink

end Antiburn
